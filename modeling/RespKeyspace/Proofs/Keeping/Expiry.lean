import RespKeyspace.Proofs.Serving.Unnoticed

/-! What keys hold after any operations: the latest entry of each key, until a read finds it
expired. Keys from which expired entries go at once, and keys from which none ever go, read alike. -/

namespace RespKeyspace

private theorem Entry.isExpired_eq_false_iff {entry : Entry} {now : Nat} :
    entry.isExpired now = false ↔ ∀ deadline, entry.deadline = some deadline → now < deadline := by
  cases limit : entry.deadline <;> simp [isExpired, limit]

namespace Keyspace

/-- What happens to keys: an assignment, a read, or the passing of time. -/
inductive Operation where
  | set (assignment : Assignment)
  | get (key : Bytes)
  | advance (milliseconds : Nat)
deriving Repr, DecidableEq

structure Timed where
  keys : Keyspace
  now : Nat
deriving Repr, DecidableEq

namespace Timed

def step (state : Timed) : Operation → Timed
  | .set assignment =>
    { state with
      keys := state.keys.set state.now assignment.key assignment.content assignment.lifetime }
  | .get key => { state with keys := (state.keys.get state.now key).2 }
  | .advance milliseconds => { state with now := state.now + milliseconds }

def run (state : Timed) (operations : List Operation) : Timed := operations.foldl step state

/-- A step behind which every entry that has expired by then is gone. -/
def stepEagerly (state : Timed) (operation : Operation) : Timed :=
  let next := state.step operation
  { next with keys := ⟨next.keys.entries.filter fun _ entry => !entry.isExpired next.now⟩ }

/-- A step by which no read removes an entry. -/
def stepKeeping (state : Timed) : Operation → Timed
  | .get _ => state
  | operation => state.step operation

/-- What the reads among some operations report, in order. -/
def reports (step : Timed → Operation → Timed) : Timed → List Operation → List (Option Bytes)
  | _, [] => []
  | state, operation :: later =>
    let behind := reports step (step state operation) later
    match operation with
    | .get key => (state.keys.get state.now key).1 :: behind
    | _ => behind

end Timed

def clock (began : Nat) : List Operation → Nat
  | [] => began
  | .advance milliseconds :: later => clock (began + milliseconds) later
  | _ :: later => clock began later

/-- An entry is the latest one of a key, and no read of the key came at its deadline or later. -/
def Lasts (began : Nat) (history : List Operation) (key : Bytes) (entry : Entry) : Prop :=
  ∃ before assignment after, history = before ++ .set assignment :: after ∧
    assignment.key = key ∧
    entry = ⟨assignment.content, assignment.lifetime.map (clock began before + ·)⟩ ∧
    (∀ later, .set later ∈ after → later.key ≠ key) ∧
    ∀ middle behind, after = middle ++ .get key :: behind →
      ∀ deadline, entry.deadline = some deadline →
        clock began (before ++ .set assignment :: middle) < deadline

section

variable {began : Nat} {history : List Operation} {key : Bytes} {entry : Entry} {operation : Operation}

private theorem Timed.run_concat (state : Timed) (history : List Operation) (operation : Operation) :
    state.run (history ++ [operation]) = (state.run history).step operation := by
  simp [Timed.run]

private theorem Timed.now_run (state : Timed) (history : List Operation) :
    (state.run history).now = clock state.now history := by
  induction history generalizing state with
  | nil => rfl
  | cons operation later ih => cases operation <;> exact ih _

/-- An operation makes the latest entry of a key, or it leaves it what it is; a read of the key
leaves it only before its deadline. -/
theorem lasts_concat_iff :
    Lasts began (history ++ [operation]) key entry ↔
      (∃ assignment, operation = .set assignment ∧ assignment.key = key ∧
        entry = ⟨assignment.content, assignment.lifetime.map (clock began history + ·)⟩) ∨
      Lasts began history key entry ∧
        (∀ assignment, operation = .set assignment → assignment.key ≠ key) ∧
        (operation = .get key → ∀ deadline, entry.deadline = some deadline →
          clock began history < deadline) := by
  constructor
  · intro lasts
    obtain ⟨before, assignment, after, whole, named, same, latest, unread⟩ := lasts
    rcases List.eq_nil_or_concat after with rfl | ⟨middle, last, rfl⟩
    · obtain ⟨rfl, rfl⟩ := List.append_singleton_inj.mp whole
      exact .inl ⟨assignment, rfl, named, same⟩
    · rw [List.concat_eq_append, ← List.cons_append, ← List.append_assoc] at whole
      obtain ⟨rfl, rfl⟩ := List.append_singleton_inj.mp whole
      rw [List.concat_eq_append] at latest unread
      refine .inr ⟨⟨before, assignment, middle, rfl, named, same, ?_, ?_⟩, ?_, ?_⟩
      · intro later member
        exact latest later (List.mem_append_left _ member)
      · intro front behind split
        exact unread front (behind ++ [operation]) (by simp [split])
      · intro later set
        exact latest later (by simp [set])
      · intro read
        exact unread middle [] (by rw [read])
  · intro cases
    rcases cases with ⟨assignment, rfl, named, same⟩ | ⟨lasts, other, alive⟩
    · exact ⟨history, assignment, [], rfl, named, same, by simp, by simp⟩
    · obtain ⟨before, assignment, after, rfl, named, same, latest, unread⟩ := lasts
      refine ⟨before, assignment, after ++ [operation], by simp, named, same, ?_, ?_⟩
      · intro later member
        rcases List.mem_append.mp member with earlier | last
        · exact latest later earlier
        · exact other later (List.mem_singleton.mp last).symm
      · intro middle behind split
        rcases List.eq_nil_or_concat behind with rfl | ⟨front, last, rfl⟩
        · obtain ⟨rfl, rfl⟩ := List.append_singleton_inj.mp split
          exact alive rfl
        · rw [List.concat_eq_append, ← List.cons_append, ← List.append_assoc] at split
          exact unread middle front (List.append_singleton_inj.mp split).1

/-- Keys hold exactly the entries that last. -/
theorem find?_run_iff :
    (Timed.run ⟨.empty, began⟩ history).keys.find? key = some entry ↔ Lasts began history key entry := by
  induction history using List.reverseRecOn generalizing entry with
  | nil =>
    refine iff_of_false (by simp [Timed.run]) ?_
    intro lasts
    obtain ⟨before, assignment, after, whole, _⟩ := lasts
    simp at whole
  | append_singleton history operation ih =>
    have now := Timed.now_run ⟨.empty, began⟩ history
    rw [Timed.run_concat, lasts_concat_iff, ← ih, ← now]
    cases operation with
    | set assignment =>
      simp only [Timed.step, find?_set]
      by_cases same : key = assignment.key
      · simp [same, eq_comm]
      · simp [same, Ne.symm same]
    | get other =>
      simp only [Timed.step, find?_get]
      by_cases same : key = other
      · subst same
        simp [Option.filter_eq_some_iff, Entry.isExpired_eq_false_iff]
      · simp [same, Ne.symm same]
    | advance milliseconds => simp [Timed.step]

private theorem exists_keys_run (began : Nat) (history : List Operation) :
    ∃ keys : List Bytes, keys.Nodup ∧ (∀ key, key ∈ keys ↔ ∃ entry, Lasts began history key entry) ∧
      (Timed.run ⟨.empty, began⟩ history).keys.size = keys.length := by
  refine ⟨(Timed.run ⟨.empty, began⟩ history).keys.entries.keys, Table.nodup _, ?_, ?_⟩
  · intro key
    rw [Table.mem_keys_iff]
    exact exists_congr fun entry => find?_run_iff
  · simp [size, Table.size, Table.keys]

theorem isEmpty_run_iff :
    (Timed.run ⟨.empty, began⟩ history).keys.isEmpty = true ↔
      ∀ key entry, ¬ Lasts began history key entry := by
  rw [isEmpty, Table.isEmpty_iff]
  refine forall_congr' fun key => ?_
  rw [Option.eq_none_iff_forall_ne_some]
  exact forall_congr' fun entry => not_congr find?_run_iff

end

private theorem get_snd_of_alive {keys : Keyspace} {now : Nat} {key : Bytes} {entry : Entry}
    (found : keys.find? key = some entry) (alive : entry.isExpired now = false) :
    (keys.get now key).2 = keys := by
  simp [get, found, alive]

namespace Timed

variable {other : Timed → Operation → Timed} {left right : Timed}

/-- The same time, and keys that every read finds the same from then on. -/
structure Alike (left right : Timed) : Prop where
  now : left.now = right.now
  keys : left.keys.ReadsAs right.keys right.now

/-- Another way of keeping entries, of which reads are not to notice anything. -/
def Unnoticed (other : Timed → Operation → Timed) : Prop :=
  ∀ state operation, (other state operation).Alike (state.step operation)

theorem Alike.trans {third : Timed} (first : left.Alike right) (second : right.Alike third) :
    left.Alike third :=
  ⟨first.now.trans second.now, (second.now ▸ first.keys).trans second.keys⟩

theorem Alike.step (alike : left.Alike right) (operation : Operation) :
    (left.step operation).Alike (right.step operation) := by
  obtain ⟨keys, now⟩ := left
  obtain ⟨rfl, reads⟩ := alike
  cases operation with
  | set assignment => exact ⟨rfl, reads.set assignment⟩
  | get key =>
    exact ⟨rfl, (keys.readsAs_get _ key).trans (reads.trans (right.keys.readsAs_get _ key).symm)⟩
  | advance milliseconds => exact ⟨rfl, reads.later (Nat.le_add_right _ milliseconds)⟩

private theorem unnoticed_stepEagerly : Unnoticed stepEagerly := by
  intro state operation
  refine ⟨rfl, ?_⟩
  intro key
  have swept := Table.find?_filter (state.step operation).keys.entries
    (fun _ entry => !entry.isExpired (state.step operation).now) key
  exact (congrArg _ swept).trans (filter_later _ (Nat.le_refl _))

private theorem unnoticed_stepKeeping : Unnoticed stepKeeping := by
  intro state operation
  cases operation with
  | get key => exact ⟨rfl, (state.keys.readsAs_get state.now key).symm⟩
  | _ => exact ⟨rfl, .refl _ _⟩

/-- Keys that are kept in another way report the same if reads notice nothing of it. -/
theorem reports_eq (unnoticed : Unnoticed other) (alike : left.Alike right)
    (operations : List Operation) : reports other left operations = reports step right operations := by
  induction operations generalizing left right with
  | nil => rfl
  | cons operation later ih =>
    have behind := ih ((unnoticed left operation).trans (alike.step operation))
    cases operation with
    | get key => simp only [reports, behind, alike.now, alike.keys.get_fst key]
    | _ => simpa only [reports] using behind

end Timed

/-- Whatever is done to keys that were empty: an entry is held exactly if it is the latest one of
its key and no read of the key came at its deadline or later. Their number is the number of keys
with such an entry. A read removes no entry but an expired one of its own key. Keys from which every
expired entry goes at each operation report the same to all reads, and so do keys from which no
entry ever goes. -/
theorem entries_last_until_read_expired (began : Nat) (history : List Operation) :
    let start : Timed := ⟨.empty, began⟩
    let state := start.run history
    (∀ key entry, state.keys.find? key = some entry ↔ Lasts began history key entry) ∧
    (∃ keys : List Bytes, keys.Nodup ∧ (∀ key, key ∈ keys ↔ ∃ entry, Lasts began history key entry) ∧
      state.keys.size = keys.length) ∧
    (state.keys.isEmpty = true ↔ ∀ key entry, ¬ Lasts began history key entry) ∧
    (∀ key other, other ≠ key →
      (state.step (.get key)).keys.find? other = state.keys.find? other) ∧
    (∀ key entry, state.keys.find? key = some entry →
      (∀ deadline, entry.deadline = some deadline → state.now < deadline) →
        (state.step (.get key)).keys = state.keys) ∧
    Timed.reports Timed.stepEagerly start history = Timed.reports Timed.step start history ∧
    Timed.reports Timed.stepKeeping start history = Timed.reports Timed.step start history := by
  intro start state
  have same : start.Alike start := ⟨rfl, .refl _ _⟩
  refine ⟨fun _ _ => find?_run_iff, exists_keys_run began history, isEmpty_run_iff, ?_, ?_, ?_, ?_⟩
  · intro key other differ
    rw [Timed.step, find?_get, if_neg differ]
  · intro key entry found alive
    exact get_snd_of_alive found (Entry.isExpired_eq_false_iff.mpr alive)
  · exact Timed.reports_eq Timed.unnoticed_stepEagerly same history
  · exact Timed.reports_eq Timed.unnoticed_stepKeeping same history

/-- A key that expires and one that does not: a read of the first at its deadline takes its entry
and not the other's, and a read of the other takes nothing. -/
theorem read_at_deadline_spares_others :
    let expiring := Bytes.ofText "a"
    let lasting := Bytes.ofText "b"
    let history := [.set ⟨expiring, [], some 10⟩, .set ⟨lasting, [], none⟩, .advance 10]
    let state := Timed.run ⟨.empty, 0⟩ history
    state.keys.find? expiring = some ⟨[], some 10⟩ ∧
      (state.step (.get expiring)).keys.find? expiring = none ∧
      (state.step (.get expiring)).keys.find? lasting = state.keys.find? lasting ∧
      (state.step (.get lasting)).keys = state.keys := by
  intro expiring lasting history state
  obtain ⟨_, _, _, spares, alive, _⟩ := entries_last_until_read_expired 0 history
  refine ⟨by decide +kernel, by decide +kernel, ?_, ?_⟩
  · exact spares expiring lasting (by decide +kernel)
  · exact alive lasting ⟨[], none⟩ (by decide +kernel) (by simp)

end Keyspace

end RespKeyspace
