import RespKeyspace.Proofs.Link.Transfers

/-! The dialogue of a replica with a peer that may answer anything, at any time and in any
pieces, on a stream that may fail anywhere. Greetings go out in their order, each behind the
reply to the one before it, and every byte received is part of a reply, part of the snapshot,
or left in the buffer. -/

namespace RespKeyspace

namespace Allowance

variable {allowance next : Option Allowance} {used : Nat} {reason : String}

private theorem restore_of_use_ok {initial : Option Allowance}
    (same : initial = allowance.map (restore used))
    (passes : use allowance = (.ok (), next)) : initial = next.map (restore (used + 1)) := by
  unfold use at passes
  split at passes
  · cases passes
    exact same
  · cases passes
  · rename_i left reason
    cases passes
    rw [same]
    simp [restore]
    omega

private theorem restore_of_use_error {initial : Option Allowance}
    (same : initial = allowance.map (restore used))
    (fails : use allowance = (.error reason, next)) : initial = some ⟨used, reason⟩ := by
  unfold use at fails
  split at fails
  · cases fails
  · cases fails
    simpa [restore] using same
  · cases fails

end Allowance

/-- A stream on which writing and flushing were used alike, once for each greeting. -/
structure Ready (setting : Setting) (sent : Nat) (taken : List Bytes) (wire : Wire) : Prop
    extends Passed setting sent taken wire where
  writes : setting.writes = wire.writes.map (Allowance.restore sent)
  flushes : setting.flushes = wire.flushes.map (Allowance.restore sent)

/-- A stream on which as many greetings were answered as were sent. -/
def Answered (setting : Setting) (replies : List Value) (wire : Wire) : Prop :=
  ∃ taken, Ready setting replies.length taken wire ∧
    Value.Holds taken.flatten replies wire.incoming.buffer

/-- What a part of a handshake comes to: it fails as a handshake may fail, or goes on. -/
def Comes {Content : Type} (setting : Setting) (onward : Content → Wire → Prop) :
    Except HandshakeFault Content × Wire → Prop
  | (.ok content, wire) => onward content wire
  | (.error fault, wire) => Failed setting wire fault

section

variable {setting : Setting} {taken : List Bytes} {replies : List Value} {greeting : Greeting} {wire : Wire}

private theorem Ready.greet (ready : Ready setting replies.length taken wire)
    (held : Value.Holds taken.flatten replies wire.incoming.buffer)
    (due : Greeting.all[replies.length]? = some greeting) :
    Comes setting (fun _ later => Ready setting (replies.length + 1) taken later ∧
      later.incoming = wire.incoming) (wire.greet setting.port greeting) := by
  rw [Wire.greet, Wire.write]
  cases written : Allowance.use wire.writes with
  | mk result writes =>
  cases result with
  | error reason =>
    have fails := Allowance.restore_of_use_error ready.writes written
    exact .unsent ⟨ready.orderly, ready.written, ready.counts, ready.chunks, ready.failure⟩ held due fails
  | ok _ =>
    dsimp only
    rw [Wire.flush]
    cases flushed : Allowance.use wire.flushes with
    | mk result flushes =>
    have passed : ∀ later : Wire, later.incoming = wire.incoming → later.newestFirst = _ →
        Passed setting (replies.length + 1) taken later := fun _ => ready.toPassed.greets held due
    cases result with
    | error reason =>
      exact .unflushed (passed _ rfl rfl) held due (Allowance.restore_of_use_error ready.flushes flushed)
    | ok _ =>
      exact ⟨⟨passed _ rfl rfl, Allowance.restore_of_use_ok ready.writes written,
        Allowance.restore_of_use_ok ready.flushes flushed⟩, rfl⟩

/-- Reading takes chunks as long as the bytes behind the replies are undecided. Then they hold
what is read, or the stream is stalled. -/
theorem Ready.readWith {Fault Content : Type} (examine : Bytes → Reading Fault Content)
    (blame : Fault → ReadFault) {sent : Nat} (ready : Ready setting sent taken wire)
    (held : Value.Holds taken.flatten replies wire.incoming.buffer)
    (permitted : ∀ record rest count, Orderly setting record → (Transfer.pieces record).length = sent →
      Value.Holds (setting.received record) replies rest → examine rest = .incomplete →
      Orderly setting (.read count :: record)) {result : Except ReadFault Content} {later : Wire}
    (read : wire.readWith (·.await examine blame) = (result, later)) :
    ∃ all, Ready setting sent all later ∧
      (∀ content, result = .ok content → ∃ rest, Value.Holds all.flatten replies rest ∧
        examine rest = .value content later.incoming.buffer) ∧
      ∀ fault, result = .error fault → Value.Holds all.flatten replies later.incoming.buffer ∧
        Incoming.Stalled examine blame all later.incoming fault := by
  obtain ⟨more, passed, awaited⟩ := ready.toPassed.readWith examine blame
    fun record front count orderly written received undecided =>
      permitted record _ count orderly written (received ▸ held.append front) undecided
  have same : later = _ := (congrArg Prod.snd read).symm
  rw [read] at passed awaited
  have arrived := held.append more.flatten
  rw [← List.flatten_append] at arrived
  refine ⟨taken ++ more, ⟨passed, ?_, ?_⟩, ?_, ?_⟩
  · rw [same]
    exact ready.writes
  · rw [same]
    exact ready.flushes
  · intro content given
    exact ⟨_, arrived, awaited.given content given⟩
  · intro fault refused
    obtain ⟨kept, stalled⟩ := awaited.refused fault refused
    exact ⟨kept ▸ arrived, stalled.append taken⟩

private theorem Ready.expect (ready : Ready setting (replies.length + 1) taken wire)
    (held : Value.Holds taken.flatten replies wire.incoming.buffer)
    (due : Greeting.all[replies.length]? = some greeting) :
    Comes setting (fun reply later => Answered setting (replies ++ [reply]) later)
      (wire.expect greeting Incoming.readOne) := by
  rw [Wire.expect]
  cases read : wire.readWith Incoming.readOne with
  | mk result later =>
  obtain ⟨all, ready, given, refused⟩ :=
    ready.readWith Value.read .frame held (fun _ _ _ => .awaitsReply) read
  cases result with
  | error fault =>
    obtain ⟨held, stalled⟩ := refused fault rfl
    exact .unanswered ready.toPassed held due stalled
  | ok reply =>
    obtain ⟨rest, held, found⟩ := given reply rfl
    refine ⟨all, ?_, held.concat found⟩
    rw [List.length_append, List.length_singleton]
    exact ready

private theorem Answered.exchange (answered : Answered setting replies wire)
    (due : Greeting.all[replies.length]? = some greeting) :
    Comes setting (fun reply later => Answered setting (replies ++ [reply]) later)
      (wire.exchange setting.port greeting) := by
  obtain ⟨taken, ready, held⟩ := answered
  have greeted := ready.greet held due
  rw [Wire.exchange]
  cases sent : wire.greet setting.port greeting with
  | mk result later =>
  rw [sent] at greeted
  cases result with
  | error fault => exact greeted
  | ok _ =>
    obtain ⟨asked, same⟩ := greeted
    exact asked.expect (same ▸ held) due

private theorem Answered.exchangeAll {greetings others : List Greeting} {total : Nat}
    (answered : Answered setting replies wire)
    (due : Greeting.all.drop replies.length = greetings ++ others)
    (count : replies.length + greetings.length = total) :
    Comes setting (fun _ later => ∃ all : List Value, all.length = total ∧ Answered setting all later)
      (wire.exchangeAll setting.port greetings) := by
  induction greetings generalizing replies wire with
  | nil => exact ⟨replies, count, answered⟩
  | cons greeting rest ih =>
    have next : Greeting.all[replies.length]? = some greeting := by
      rw [← List.head?_drop, due]
      rfl
    have exchanged := answered.exchange next
    rw [Wire.exchangeAll]
    cases done : wire.exchange setting.port greeting with
    | mk result later =>
    rw [done] at exchanged
    cases result with
    | error fault => exact exchanged
    | ok reply =>
      apply ih exchanged
      · rw [List.length_append, List.length_singleton, ← List.tail_drop, due]
        rfl
      · rw [← count, List.length_append, List.length_singleton, List.length_cons]
        omega

private theorem Answered.load {reply : Value} {id : String}
    (answered : Answered setting (replies ++ [reply]) wire)
    (last : (replies ++ [reply]).length = Greeting.all.length) (announces : reply.Announces id) :
    Comes setting (fun _ later => Completed setting later (some id))
      (wire.expect .psync Incoming.readSnapshot) := by
  obtain ⟨taken, ready, held⟩ := answered
  rw [last] at ready
  rw [Wire.expect]
  cases read : wire.readWith Incoming.readSnapshot with
  | mk result later =>
  obtain ⟨all, ready, given, refused⟩ := ready.readWith Snapshot.read .snapshot held
    (fun _ _ _ orderly sent held => .awaitsSnapshot orderly last sent held announces) read
  cases result with
  | error fault =>
    obtain ⟨held, stalled⟩ := refused fault rfl
    exact .unloaded ready.toPassed last held announces stalled
  | ok payload =>
    obtain ⟨rest, held, found⟩ := given payload rfl
    obtain ⟨snapshot, rfl, whole⟩ := Snapshot.exists_form_of_read found
    exact .loaded ready.toPassed last held announces whole

private theorem answered_wire (setting : Setting) : Answered setting [] setting.wire := by
  have whole : Allowance.restore 0 = id := rfl
  refine ⟨[], ⟨⟨.start, rfl, rfl, rfl, rfl⟩, ?_, ?_⟩, Value.holds_nil []⟩
  · rw [List.length_nil, whole, Option.map_id]
    rfl
  · rw [List.length_nil, whole, Option.map_id]
    rfl

/-- A handshake completes, or fails at the greeting that is due. -/
theorem comes_handshake (setting : Setting) :
    Comes setting (fun id later => Completed setting later id) (setting.wire.handshake setting.port) := by
  have greeted := (answered_wire setting).exchangeAll (by rfl : _ = Greeting.preliminaries ++ [.psync]) rfl
  rw [Wire.handshake]
  cases done : setting.wire.exchangeAll setting.port Greeting.preliminaries with
  | mk result wire =>
  rw [done] at greeted
  cases result with
  | error fault => exact greeted
  | ok _ =>
    obtain ⟨replies, count, answered⟩ := greeted
    have due : Greeting.all[replies.length]? = some .psync := by rw [count]; rfl
    have exchanged := answered.exchange due
    dsimp only
    cases done : wire.exchange setting.port .psync with
    | mk result wire =>
    rw [done] at exchanged
    cases result with
    | error fault => exact exchanged
    | ok reply =>
      have last : (replies ++ [reply]).length = Greeting.all.length := by
        rw [List.length_append, count]
        rfl
      dsimp only
      cases announced : reply.announcedId? with
      | none =>
        obtain ⟨taken, ready, held⟩ := exchanged
        refine .plain (last ▸ ready.toPassed) last held ?_
        intro id announces
        rw [Value.announcedId?_eq_some_iff.mpr announces] at announced
        cases announced
      | some id =>
        have loaded := exchanged.load last (Value.announcedId?_eq_some_iff.mp announced)
        dsimp only
        cases done : wire.expect .psync Incoming.readSnapshot with
        | mk result wire =>
        rw [done] at loaded
        cases result with
        | error fault => exact loaded
        | ok payload => exact loaded

end

theorem Passed.sent_le {setting : Setting} {sent : Nat} {taken : List Bytes} {wire : Wire}
    (passed : Passed setting sent taken wire) : sent ≤ Greeting.all.length := by
  have length := congrArg List.length passed.orderly.pieces_eq
  rw [passed.written, List.length_map, List.length_take] at length
  omega

theorem Passed.written_eq {setting : Setting} {sent : Nat} {taken : List Bytes} {wire : Wire}
    (passed : Passed setting sent taken wire) :
    wire.written = (Greeting.all.take sent).flatMap fun greeting =>
      (greeting.toValue setting.port).encode := by
  rw [Wire.written_eq, passed.orderly.pieces_eq, passed.written]
  rfl

private theorem Failed.passed {setting : Setting} {wire : Wire} {fault : HandshakeFault}
    (failed : Failed setting wire fault) : ∃ sent taken, Passed setting sent taken wire := by
  cases failed with
  | unsent passed | unflushed passed | unanswered passed | unloaded passed => exact ⟨_, _, passed⟩

theorem Completed.passed {setting : Setting} {wire : Wire} {id : Option String}
    (completed : Completed setting wire id) :
    ∃ taken, Passed setting Greeting.all.length taken wire := by
  cases completed with
  | plain passed | loaded passed => exact ⟨_, passed⟩

/-- Whatever is met, the greetings written are the first ones of the four, and each of them,
like each read, has its turn; the bytes received are the chunks taken, in order and complete.
A handshake that fails names the greeting that could not be written or flushed, or to which
the reply, or the snapshot it announced, did not come; one that succeeds has received four
replies, the snapshot if and only if the last reply announces it, and what is left in the buffer. -/
theorem handshake_keeps_order (setting : Setting) :
    let ended := setting.wire.handshake setting.port
    let record := ended.2.newestFirst
    Orderly setting record ∧
    (∃ sent ≤ Greeting.all.length, ended.2.written =
      (Greeting.all.take sent).flatMap fun greeting => (greeting.toValue setting.port).encode) ∧
    (∃ taken, setting.chunks = taken ++ ended.2.incoming.chunks ∧
      Transfer.counts record = taken.map List.length ∧ setting.received record = taken.flatten) ∧
    (∀ fault, ended.1 = .error fault → Failed setting ended.2 fault) ∧
    ∀ id, ended.1 = .ok id → Completed setting ended.2 id ∧
      ended.2.written = Greeting.bytes setting.port := by
  intro ended record
  have comes := comes_handshake setting
  have failed : ∀ fault, ended.1 = .error fault → Failed setting ended.2 fault := by
    intro fault same
    rw [show setting.wire.handshake setting.port = (.error fault, ended.2) from Prod.ext same rfl] at comes
    exact comes
  have completed : ∀ id, ended.1 = .ok id → Completed setting ended.2 id := by
    intro id same
    rw [show setting.wire.handshake setting.port = (.ok id, ended.2) from Prod.ext same rfl] at comes
    exact comes
  have passed : ∃ sent taken, Passed setting sent taken ended.2 := by
    cases result : ended.1 with
    | error fault => exact (failed fault result).passed
    | ok id => exact ⟨_, (completed id result).passed⟩
  obtain ⟨sent, taken, passed⟩ := passed
  refine ⟨passed.orderly, ⟨sent, passed.sent_le, passed.written_eq⟩,
    ⟨taken, passed.chunks, passed.counts, ?_⟩, failed, ?_⟩
  · exact Passed.received_eq passed.counts passed.chunks
  · intro id same
    obtain ⟨_, all⟩ := (completed id same).passed
    refine ⟨completed id same, all.written_eq.trans ?_⟩
    rw [List.take_length, Greeting.bytes, List.flatMap_map]

/-- Replies may come glued together, and the snapshot in two pieces. -/
example :
    let chunks := [Bytes.ofText "+PONG\r\n+OK\r\n-ERR\r\n+fullresync id 0\r\n$1\r", Bytes.ofText "\nxleft"]
    let ended := (Setting.wire ⟨6380, chunks, none, none, some ⟨4, "broken"⟩⟩).handshake 6380
    ended.1.toOption = some (some "id") ∧ ended.2.incoming.buffer = Bytes.ofText "left" := by
  decide +kernel

end RespKeyspace
