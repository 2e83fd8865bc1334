import RespKeyspace.Proofs.Reader.Arrival
import RespKeyspace.Proofs.Reader.Shortest
import RespKeyspace.Proofs.Reader.Snapshots

/-! Readers of one stream, called in any order. A call takes the fewest chunks that decide it, and
whatever the calls give or fail with, the frames given and the buffer are the bytes received. -/

namespace RespKeyspace

namespace Value

variable {bytes rest : Bytes} {values : List Value} {fault : FrameFault}

theorem readAll_eq_incomplete_iff : readAll bytes = .incomplete ↔ read bytes = .incomplete := by
  rw [readAll_eq]
  cases found : read bytes with
  | value value rest => simp [decoded_of_value found, Decoded.after, Decoded.batch]
  | incomplete => simp [decoded_of_incomplete found, Decoded.batch]
  | malformed fault => simp [decoded_of_malformed found, Decoded.batch]

theorem readAll_eq_malformed_iff : readAll bytes = .malformed fault ↔ read bytes = .malformed fault := by
  rw [readAll_eq]
  cases found : read bytes with
  | value value rest => simp [decoded_of_value found, Decoded.after, Decoded.batch]
  | incomplete => simp [decoded_of_incomplete found, Decoded.batch]
  | malformed fault => simp [decoded_of_malformed found, Decoded.batch]

private theorem decoded_of_frames {frames : List (Value × Bytes)}
    (each : ∀ frame ∈ frames, Framed .enforced 0 frame.2 frame.1) (rest : Bytes) :
    decoded (frames.flatMap Prod.snd ++ rest) = (decoded rest).after (frames.map Prod.fst) := by
  induction frames with
  | nil => rfl
  | cons frame later ih =>
    have first := (read_takes_frames.1 _ frame.1 (later.flatMap Prod.snd ++ rest)).mpr
      ⟨frame.2, rfl, each frame List.mem_cons_self⟩
    have behind := ih fun frame member => each frame (List.mem_cons_of_mem _ member)
    rw [List.flatMap_cons, List.append_assoc, decoded_of_value first, behind]
    simp

private theorem readAll_ne_nil : readAll bytes ≠ .value [] rest := by
  rw [readAll_eq, Decoded.batch.eq_def]
  split <;> simp

/-- All complete values are read: they stand in frames at the front, and behind them no frame
stands. -/
theorem readAll_eq_value_iff :
    readAll bytes = .value values rest ↔
      ∃ frames : List (Value × Bytes), frames ≠ [] ∧ frames.map Prod.fst = values ∧
        (∀ frame ∈ frames, Framed .enforced 0 frame.2 frame.1) ∧
        (∀ form value, Framed .enforced 0 form value → ¬ form <+: rest) ∧
        bytes = frames.flatMap Prod.snd ++ rest := by
  constructor
  · intro found
    have held := decoded_of_readAll_value found
    obtain ⟨same, whole, forms⟩ := framed_spec bytes
    rw [held] at same whole
    refine ⟨framed bytes, ?_, same, ?_, ?_, whole.symm⟩
    · intro none
      rw [none, List.map_nil] at same
      subst same
      exact readAll_ne_nil found
    · intro frame member
      exact (forms frame member).framed (Nat.le_of_eq (Nat.zero_add maxDepth))
    · rintro form value again ⟨more, rfl⟩
      have next := (read_takes_frames.1 _ value more).mpr ⟨form, rfl, again⟩
      have last := congrArg Decoded.values (decoded_rest bytes)
      rw [held, decoded_of_value next] at last
      cases last
  · rintro ⟨frames, some, rfl, each, last, rfl⟩
    have none : (decoded rest).values = [] := by
      cases found : read rest with
      | value value behind =>
        obtain ⟨form, whole, framed⟩ := (read_takes_frames.1 _ _ _).mp found
        exact absurd ⟨behind, whole.symm⟩ (last form value framed)
      | incomplete => rw [decoded_of_incomplete found]
      | malformed fault => rw [decoded_of_malformed found]
    have left := rest_of_values_nil none
    rw [readAll_eq, decoded_of_frames each]
    obtain ⟨first, later, rfl⟩ := List.exists_cons_of_ne_nil some
    simp [Decoded.after, Decoded.batch, none, left]

end Value

namespace Incoming

/-- The readers of a stream: all complete values, one value, or one snapshot. -/
inductive Call where
  | batch
  | single
  | snapshot
deriving Repr, DecidableEq

inductive Item where
  | value (value : Value)
  | snapshot (payload : Bytes)
deriving Repr, DecidableEq

/-- The bytes that an item has on the wire. -/
inductive Item.Form : Bytes → Item → Prop where
  | value {form value} (framed : Value.Framed .enforced 0 form value) : Form form (.value value)
  | snapshot {form payload} (framed : Snapshot.Framed form payload) : Form form (.snapshot payload)

/-- Call a reader: the items it gives, or its failure. -/
def call (input : Incoming) : Call → Except ReadFault (List Item) × Incoming
  | .batch => (input.readAll.1.map (List.map .value), input.readAll.2)
  | .single => (input.readOne.1.map fun value => [.value value], input.readOne.2)
  | .snapshot => (input.readSnapshot.1.map fun payload => [.snapshot payload], input.readSnapshot.2)

/-- Call one reader after another, whether or not a call fails. -/
def callAll (input : Incoming) : List Call → List (Except ReadFault (List Item)) × Incoming
  | [] => ([], input)
  | call :: later =>
    let behind := (input.call call).2.callAll later
    ((input.call call).1 :: behind.1, behind.2)

/-- The items of a call; a call that fails gives none. -/
def items : Except ReadFault (List Item) → List Item
  | .ok items => items
  | .error _ => []

/-- The buffer once `count` more chunks are received. -/
def filled (input : Incoming) (count : Nat) : Bytes :=
  input.buffer ++ (input.chunks.take count).flatten

/-- How many chunks come before a read that delivers nothing. -/
def reach (input : Incoming) : Nat := (input.chunks.takeWhile fun chunk => !chunk.isEmpty).length

/-- What decides a call: complete frames at the front of the buffer, all of them for a batch, or
bytes that are no frame. -/
inductive Decides : Call → Bytes → Except ReadFault (List Item) → Bytes → Prop where
  | batch {frames : List (Value × Bytes)} {rest} (some : frames ≠ [])
      (each : ∀ frame ∈ frames, Value.Framed .enforced 0 frame.2 frame.1)
      (last : ∀ form value, Value.Framed .enforced 0 form value → ¬ form <+: rest) :
      Decides .batch (frames.flatMap Prod.snd ++ rest)
        (.ok ((frames.map Prod.fst).map .value)) rest
  | single {form value rest} (framed : Value.Framed .enforced 0 form value) :
      Decides .single (form ++ rest) (.ok [.value value]) rest
  | snapshot {form payload rest} (framed : Snapshot.Framed form payload) :
      Decides .snapshot (form ++ rest) (.ok [.snapshot payload]) rest
  | noFrame {call buffer fault} (reads : call = .batch ∨ call = .single)
      (found : Value.read buffer = .malformed fault) :
      Decides call buffer (.error (.frame fault)) buffer
  | noSnapshot {buffer fault} (found : Snapshot.read buffer = .malformed fault) :
      Decides .snapshot buffer (.error (.snapshot fault)) buffer

/-- No frame is complete at the front of the buffer, and none is ruled out. -/
def Undecided (call : Call) (buffer : Bytes) : Prop :=
  ∀ result left, ¬ Decides call buffer result left

/-- How a call ends: with what is decided once the fewest chunks are received that decide it; or,
if none do, because a read delivers nothing or no chunk is left, once all before is received. -/
inductive Handled (call : Call) (before : Incoming) : Except ReadFault (List Item) → Incoming → Prop where
  | decided {count result left} (within : count ≤ before.reach)
      (least : ∀ fewer, fewer < count → Undecided call (before.filled fewer))
      (decides : Decides call (before.filled count) result left) :
      Handled call before result ⟨left, before.chunks.drop count, before.failure⟩
  | closed (undecided : ∀ count, count ≤ before.reach → Undecided call (before.filled count))
      (empty : before.chunks[before.reach]? = some []) :
      Handled call before (.error .closed)
        ⟨before.filled before.reach, before.chunks.drop (before.reach + 1), before.failure⟩
  | ended (undecided : ∀ count, count ≤ before.reach → Undecided call (before.filled count))
      (all : before.reach = before.chunks.length) :
      Handled call before (.error (ending before.failure))
        ⟨before.filled before.reach, [], before.failure⟩

/-- A reader whose readings are what decides a call. -/
structure Exact {Fault Content : Type} (call : Call) (examine : Bytes → Reading Fault Content)
    (give : Content → List Item) (blame : Fault → ReadFault) : Prop where
  value : ∀ {buffer content rest}, examine buffer = .value content rest →
    Decides call buffer (.ok (give content)) rest
  malformed : ∀ {buffer fault}, examine buffer = .malformed fault →
    Decides call buffer (.error (blame fault)) buffer
  incomplete : ∀ {buffer}, examine buffer = .incomplete → Undecided call buffer

private theorem exact_batch : Exact .batch Value.readAll (List.map .value) .frame where
  value found := by
    obtain ⟨frames, some, rfl, each, last, rfl⟩ := Value.readAll_eq_value_iff.mp found
    exact .batch some each last
  malformed found := .noFrame (.inl rfl) (Value.readAll_eq_malformed_iff.mp found)
  incomplete waits := by
    intro result left decides
    cases decides with
    | batch some each last =>
      rw [Value.readAll_eq_value_iff.mpr ⟨_, some, rfl, each, last, rfl⟩] at waits
      cases waits
    | noFrame reads found => simp [Value.readAll_eq_incomplete_iff.mp waits] at found

private theorem exact_single : Exact .single Value.read (fun value => [.value value]) .frame where
  value found := by
    obtain ⟨form, rfl, framed⟩ := (Value.read_takes_frames.1 _ _ _).mp found
    exact .single framed
  malformed found := .noFrame (.inr rfl) found
  incomplete waits := by
    intro result left decides
    cases decides with
    | single framed =>
      rw [(Value.read_takes_frames.1 _ _ left).mpr ⟨_, rfl, framed⟩] at waits
      cases waits
    | noFrame reads found => simp [waits] at found

private theorem exact_snapshot :
    Exact .snapshot Snapshot.read (fun payload => [.snapshot payload]) .snapshot where
  value found := by
    obtain ⟨form, rfl, framed⟩ := Snapshot.read_eq_value_iff_framed.mp found
    exact .snapshot framed
  malformed found := .noSnapshot found
  incomplete waits := by
    intro result left decides
    cases decides with
    | snapshot framed =>
      rw [Snapshot.read_eq_value_iff_framed.mpr ⟨_, rfl, framed⟩] at waits
      cases waits
    | noFrame reads found => rcases reads with absurd | absurd <;> cases absurd
    | noSnapshot found => simp [waits] at found

section

variable {buffer chunk : Bytes} {later : List Bytes} {failure : Option String} {call : Call}

@[simp] theorem filled_zero (input : Incoming) : input.filled 0 = input.buffer := by simp [filled]

theorem filled_succ (count : Nat) :
    filled ⟨buffer, chunk :: later, failure⟩ (count + 1) =
      filled ⟨buffer ++ chunk, later, failure⟩ count := by
  simp [filled]

private theorem reach_cons (some : chunk ≠ []) (more : Bytes) :
    reach ⟨buffer, chunk :: later, failure⟩ = reach ⟨more, later, failure⟩ + 1 := by
  simp [reach, some]

private theorem Undecided.filled {count : Nat} (waits : Undecided call buffer)
    (behind : ∀ fewer, fewer < count → Undecided call (filled ⟨buffer ++ chunk, later, failure⟩ fewer)) :
    ∀ fewer, fewer < count + 1 → Undecided call (Incoming.filled ⟨buffer, chunk :: later, failure⟩ fewer) := by
  intro fewer less
  cases fewer with
  | zero => simpa using waits
  | succ fewer =>
    rw [filled_succ]
    exact behind fewer (Nat.lt_of_succ_lt_succ less)

private theorem Handled.atOnce {result : Except ReadFault (List Item)} {left : Bytes}
    (decides : Decides call buffer result left) :
    Handled call ⟨buffer, later, failure⟩ result ⟨left, later, failure⟩ := by
  refine @Handled.decided call ⟨buffer, later, failure⟩ 0 result left (Nat.zero_le _) ?_ ?_
  · intro fewer less
    exact absurd less (Nat.not_lt_zero fewer)
  · simpa using decides

private theorem Handled.cons {result : Except ReadFault (List Item)} {after : Incoming}
    (waits : Undecided call buffer) (some : chunk ≠ [])
    (handled : Handled call ⟨buffer ++ chunk, later, failure⟩ result after) :
    Handled call ⟨buffer, chunk :: later, failure⟩ result after := by
  have reached : reach ⟨buffer, chunk :: later, failure⟩ =
      reach ⟨buffer ++ chunk, later, failure⟩ + 1 := reach_cons some _
  have waiting : (∀ count, count ≤ reach ⟨buffer ++ chunk, later, failure⟩ →
        Undecided call (filled ⟨buffer ++ chunk, later, failure⟩ count)) →
      ∀ count, count ≤ reach ⟨buffer, chunk :: later, failure⟩ →
        Undecided call (filled ⟨buffer, chunk :: later, failure⟩ count) := by
    intro undecided count within
    rw [reached] at within
    exact waits.filled (fun fewer less => undecided fewer (Nat.le_of_lt_succ less)) count
      (Nat.lt_succ_of_le within)
  cases handled with
  | decided within least decides =>
    rw [← filled_succ] at decides
    exact .decided (reached ▸ Nat.succ_le_succ within) (waits.filled least) decides
  | closed undecided empty =>
    have stopped := Handled.closed (waiting undecided) (by rw [reached]; exact empty)
    rw [reached, filled_succ] at stopped
    exact stopped
  | ended undecided all =>
    have stopped := Handled.ended (waiting undecided) (by rw [reached, all]; rfl)
    rw [reached, filled_succ] at stopped
    exact stopped

end

section

variable {Fault Content : Type} {call : Call} {examine : Bytes → Reading Fault Content}
  {give : Content → List Item} {blame : Fault → ReadFault}

private theorem handled_awaitFrom (exact : Exact call examine give blame) (failure : Option String)
    (buffer : Bytes) (chunks : List Bytes) :
    Handled call ⟨buffer, chunks, failure⟩ ((awaitFrom examine blame failure buffer chunks).1.map give)
      (awaitFrom examine blame failure buffer chunks).2 := by
  fun_induction awaitFrom examine blame failure buffer chunks with
  | case1 chunks buffer content rest found => exact .atOnce (exact.value found)
  | case2 chunks buffer fault found => exact .atOnce (exact.malformed found)
  | case3 buffer found =>
    have waits := exact.incomplete found
    have stopped := @Handled.ended call ⟨buffer, [], failure⟩ (by simpa [reach] using waits) rfl
    simpa [reach, Except.map] using stopped
  | case4 buffer found later =>
    have waits := exact.incomplete found
    have stopped := @Handled.closed call ⟨buffer, [] :: later, failure⟩ (by simpa [reach] using waits) rfl
    simpa [reach, Except.map] using stopped
  | case5 buffer found chunk later filled ih =>
    exact ih.cons (exact.incomplete found) filled

end

/-- Every call is handled as its kind requires. -/
theorem handled_call (input : Incoming) (call : Call) :
    Handled call input (input.call call).1 (input.call call).2 := by
  cases call with
  | batch => exact handled_awaitFrom exact_batch _ _ _
  | single => exact handled_awaitFrom exact_single _ _ _
  | snapshot => exact handled_awaitFrom exact_snapshot _ _ _

/-! What calls give and what they leave. -/

private theorem Decides.accounts {call : Call} {buffer left : Bytes}
    {result : Except ReadFault (List Item)}
    (decides : Decides call buffer result left) :
    ∃ frames : List (Item × Bytes), frames.map Prod.fst = items result ∧
      (∀ frame ∈ frames, Item.Form frame.2 frame.1) ∧ buffer = frames.flatMap Prod.snd ++ left := by
  cases decides with
  | @batch frames rest some each last =>
    refine ⟨frames.map fun frame => (.value frame.1, frame.2), by simp [items], ?_, ?_⟩
    · intro frame member
      obtain ⟨part, inside, rfl⟩ := List.mem_map.mp member
      exact .value (each part inside)
    · rw [List.flatMap_map]
  | @single form value rest framed =>
    exact ⟨[(.value value, form)], rfl, by simpa using Item.Form.value framed, by simp⟩
  | @snapshot form payload rest framed =>
    exact ⟨[(.snapshot payload, form)], rfl, by simpa using Item.Form.snapshot framed, by simp⟩
  | noFrame => exact ⟨[], rfl, by simp, rfl⟩
  | noSnapshot => exact ⟨[], rfl, by simp, rfl⟩

/-- No byte is lost in a call: what it takes is in the frames it gives or in the buffer it leaves. -/
theorem Handled.accounts {call : Call} {before after : Incoming} {result : Except ReadFault (List Item)}
    (handled : Handled call before result after) :
    ∃ (taken : List Bytes) (frames : List (Item × Bytes)), before.chunks = taken ++ after.chunks ∧
      frames.map Prod.fst = items result ∧ (∀ frame ∈ frames, Item.Form frame.2 frame.1) ∧
      before.buffer ++ taken.flatten = frames.flatMap Prod.snd ++ after.buffer := by
  cases handled with
  | @decided count result left within least decides =>
    obtain ⟨frames, same, each, whole⟩ := decides.accounts
    exact ⟨before.chunks.take count, frames, (List.take_append_drop _ _).symm, same, each, whole⟩
  | closed undecided empty =>
    refine ⟨before.chunks.take (before.reach + 1), [], (List.take_append_drop _ _).symm, rfl, by simp, ?_⟩
    simp [List.take_add_one, empty, filled]
  | ended undecided all =>
    refine ⟨before.chunks, [], by simp, rfl, by simp, ?_⟩
    simp [filled, all]

theorem callAll_accounts (calls : List Call) (input : Incoming) :
    ∃ (taken : List Bytes) (frames : List (Item × Bytes)),
      input.chunks = taken ++ (input.callAll calls).2.chunks ∧
      frames.map Prod.fst = (input.callAll calls).1.flatMap items ∧
      (∀ frame ∈ frames, Item.Form frame.2 frame.1) ∧
      input.buffer ++ taken.flatten = frames.flatMap Prod.snd ++ (input.callAll calls).2.buffer := by
  induction calls generalizing input with
  | nil => exact ⟨[], [], rfl, rfl, by simp, by simp [callAll]⟩
  | cons call later ih =>
    obtain ⟨first, frames, chunks, same, each, whole⟩ := (handled_call input call).accounts
    obtain ⟨second, others, rest, alike, every, total⟩ := ih (input.call call).2
    refine ⟨first ++ second, frames ++ others, ?_, ?_, ?_, ?_⟩
    · rw [chunks, rest, callAll, List.append_assoc]
    · simp [callAll, same, alike]
    · intro frame member
      rcases List.mem_append.mp member with earlier | later
      · exact each frame earlier
      · exact every frame later
    · rw [List.flatten_append, ← List.append_assoc, whole, List.append_assoc, total]
      simp [callAll]

/-- Whatever was called before: a call takes the fewest chunks that decide it and gives what they
decide, and if none do before a read that delivers nothing, it fails once all before is received.
A call that fails takes nothing from the buffer. At every moment, also between two reads of a call,
the bytes received are the frames given so far and the buffer behind them. -/
theorem calls_lose_nothing (chunks : List Bytes) (failure : Option String) (earlier : List Call)
    (call : Call) :
    let run := callAll ⟨[], chunks, failure⟩ earlier
    let next := run.2.call call
    Handled call run.2 next.1 next.2 ∧
      (∀ fault, next.1 = .error fault → ∃ taken, run.2.chunks = taken ++ next.2.chunks ∧
        next.2.buffer = run.2.buffer ++ taken.flatten) ∧
      ∃ (received : List Bytes) (frames : List (Item × Bytes)),
        chunks = received ++ run.2.chunks ∧ frames.map Prod.fst = run.1.flatMap items ∧
        (∀ frame ∈ frames, Item.Form frame.2 frame.1) ∧
        ∀ more, (received ++ run.2.chunks.take more).flatten =
          frames.flatMap Prod.snd ++ run.2.filled more := by
  intro run next
  have handled : Handled call run.2 next.1 next.2 := handled_call run.2 call
  refine ⟨handled, ?_, ?_⟩
  · intro fault failed
    obtain ⟨taken, frames, chunks, same, each, whole⟩ := handled.accounts
    rw [failed] at same
    obtain rfl := List.map_eq_nil_iff.mp same
    exact ⟨taken, chunks, by simpa using whole.symm⟩
  · obtain ⟨received, frames, same, given, each, whole⟩ := callAll_accounts earlier ⟨[], chunks, failure⟩
    refine ⟨received, frames, same, given, each, ?_⟩
    intro more
    rw [List.nil_append] at whole
    rw [List.flatten_append, whole, filled, List.append_assoc]

/-- A snapshot and a value behind it in one chunk; a call that then takes another chunk and finds
no frame in it leaves that chunk in the buffer, behind what was there. -/
theorem failed_call_keeps_chunk :
    let chunks := [Bytes.ofText "$2\r\na", Bytes.ofText "b+OK\r\n:", Bytes.ofText "x\r\n"]
    let run := callAll ⟨[], chunks, none⟩ [.snapshot, .single]
    let next := run.2.call .batch
    run.1 = [.ok [.snapshot (Bytes.ofText "ab")], .ok [.value (.simple "OK")]] ∧
      next.1 = .error (.frame .invalidInteger) ∧
      ∃ taken, run.2.chunks = taken ++ next.2.chunks ∧
        next.2.buffer = Bytes.ofText ":" ++ taken.flatten := by
  intro chunks run next
  have given : run.1 = [.ok [.snapshot (Bytes.ofText "ab")], .ok [.value (.simple "OK")]] := by
    decide +kernel
  have failed : next.1 = .error (.frame .invalidInteger) := by decide +kernel
  have left : run.2.buffer = Bytes.ofText ":" := by decide +kernel
  obtain ⟨taken, same, kept⟩ := (calls_lose_nothing chunks none [.snapshot, .single] .batch).2.1 _ failed
  exact ⟨given, failed, taken, same, left ▸ kept⟩

end Incoming

end RespKeyspace
