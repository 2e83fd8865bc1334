import RespKeyspace.Proofs.Link.Position
import RespKeyspace.Proofs.Session.Pieces

/-! Requests executed one after the other, without connections: what all of them together do to
the replicas, and how a run compares with one that leaves requests out. -/

namespace RespKeyspace

/-- A request with the time at which it is executed, and a label that tells it from others. -/
structure Turn (Label : Type) where
  label : Label
  now : Nat
  value : Value

namespace Value

theorem counted_append (first second : List Value) :
    counted (first ++ second) = counted first + counted second := by
  simp only [counted_eq, List.flatMap_append, List.length_append, UInt64.ofNat_add]

theorem counted_perm {first second : List Value} (same : first.Perm second) :
    counted first = counted second := by
  rw [counted_eq, counted_eq, (same.flatMap_right encode).length_eq]

end Value

namespace Server

/-- The role that is left once the replicas that cannot be reached are forgotten. -/
def reached (server : Server) : Role :=
  server.role.mapRegistry (·.filter fun _ box => server.outboxes.isOpen box)

/-- A server that has assigned, whatever it did to its keys. -/
structure Wrote (writes : List Assignment) (before after : Server) : Prop where
  replicationId : after.replicationId = before.replicationId
  role : after.role = if writes.isEmpty then before.role else before.reached
  offset : after.offset = before.offset +
    if before.HasLiveReplica then Value.counted (writes.map Assignment.toValue) else 0
  isOpen : ∀ box, after.outboxes.isOpen box = before.outboxes.isOpen box
  frames : ∀ box, before.outboxes.isOpen box = true →
    after.outboxes.frames box = before.outboxes.frames box ++
      writes.flatMap fun assignment =>
        List.replicate (before.places box) (.value assignment.toValue)

namespace Wrote

variable {first second : List Assignment} {before between after : Server}

private theorem reached_eq (wrote : Wrote first before between) : between.reached = before.reached := by
  unfold reached
  have opened : between.outboxes.isOpen = before.outboxes.isOpen := funext wrote.isOpen
  rw [opened, wrote.role]
  split
  · rfl
  · unfold reached
    cases before.role <;> simp [Role.mapRegistry, Table.filter]

theorem replica?_eq (wrote : Wrote first before between) {address : String} {box : OutboxId}
    (opened : before.outboxes.isOpen box = true) :
    between.replica? address = some box ↔ before.replica? address = some box := by
  unfold replica?
  rw [wrote.role]
  split
  · rfl
  · unfold reached
    cases before.role with
    | replica followed => rfl
    | primary replicas =>
      simp [Role.mapRegistry, Role.registry?, Table.find?_filter, Option.filter_eq_some_iff, opened]

private theorem places_eq (wrote : Wrote first before between) {box : OutboxId}
    (opened : before.outboxes.isOpen box = true) : between.places box = before.places box := by
  unfold places
  rw [wrote.role]
  split
  · rfl
  · unfold reached
    cases before.role with
    | replica followed => rfl
    | primary replicas =>
      simp [Role.mapRegistry, Role.registry?, Table.values_filter, List.count_filter, opened]

theorem hasLiveReplica_iff (wrote : Wrote first before between) :
    between.HasLiveReplica ↔ before.HasLiveReplica := by
  unfold HasLiveReplica
  constructor
  · rintro ⟨address, box, found, opened⟩
    rw [wrote.isOpen] at opened
    exact ⟨address, box, (wrote.replica?_eq opened).mp found, opened⟩
  · rintro ⟨address, box, found, opened⟩
    exact ⟨address, box, (wrote.replica?_eq opened).mpr found, by rw [wrote.isOpen, opened]⟩

theorem append (one : Wrote first before between) (other : Wrote second between after) :
    Wrote (first ++ second) before after where
  replicationId := other.replicationId.trans one.replicationId
  role := by
    rw [other.role, one.reached_eq, one.role]
    cases first <;> cases second <;> rfl
  offset := by
    rw [other.offset, one.offset]
    simp only [one.hasLiveReplica_iff, List.map_append, Value.counted_append]
    split
    · rw [UInt64.add_assoc]
    · simp
  isOpen box := (other.isOpen box).trans (one.isOpen box)
  frames box opened := by
    rw [other.frames box ((one.isOpen box).trans opened), one.frames box opened,
      one.places_eq opened, List.flatMap_append, List.append_assoc]

end Wrote

theorem wrote_keys (server : Server) (keys : Keyspace) : Wrote [] server { server with keys } where
  replicationId := rfl
  role := rfl
  offset := by simp [Value.counted]
  isOpen _ := rfl
  frames box _ := by simp

theorem wrote_assign (server : Server) (now : Nat) (assignment : Assignment) :
    Wrote [assignment] server (server.assign now assignment) where
  replicationId := replicationId_propagate _ _
  role := role_propagate _ _
  offset := by
    split
    · rename_i live
      rw [server.offset_assign_of_live now assignment live]
      simp [Value.counted]
    · rename_i dead
      rw [server.offset_assign_of_not_live now assignment dead]
      simp
  isOpen := server.isOpen_assign now assignment
  frames box opened := by simp [frames_assign, opened]

theorem wrote_serve (server : Server) (now : Nat) (value : Value) :
    Wrote value.write?.toList server (server.serve now value).2 := by
  rcases server.serve_cases now value with ⟨assignment, assigned, served⟩ | ⟨quiet, keys, served⟩
  · rw [assigned, served]
    exact server.wrote_assign now assignment
  · rw [quiet, served]
    exact server.wrote_keys keys

variable {Label : Type}

/-- Execute requests one after the other: what each of them comes to, under its label, and the
server behind the last one. -/
def serveAll (server : Server) :
    List (Turn Label) → List (Label × Except Refusal Outcome) × Server
  | [] => ([], server)
  | turn :: rest =>
    let (result, after) := server.serve turn.now turn.value
    let (results, last) := after.serveAll rest
    ((turn.label, result) :: results, last)

theorem serveAll_cons (server : Server) (turn : Turn Label) (rest : List (Turn Label)) :
    server.serveAll (turn :: rest) =
      ((turn.label, (server.serve turn.now turn.value).1) ::
          ((server.serve turn.now turn.value).2.serveAll rest).1,
        ((server.serve turn.now turn.value).2.serveAll rest).2) := rfl

theorem wrote_serveAll (server : Server) (turns : List (Turn Label)) :
    Wrote (turns.filterMap (·.value.write?)) server (server.serveAll turns).2 := by
  induction turns generalizing server with
  | nil => exact server.wrote_keys server.keys
  | cons turn rest ih =>
    have whole := (server.wrote_serve turn.now turn.value).append (ih _)
    rw [serveAll_cons, List.filterMap_cons]
    cases assigned : turn.value.write? with
    | none => simpa [assigned] using whole
    | some assignment => simpa [assigned] using whole

/-- Two runs, of which the second leaves out what is not to be kept. If each request that both
execute has one result and keeps them related, and each one left out keeps them related too, then
what is kept has the same results in both. -/
theorem serveAll_filter (Related : List (Turn Label) → Server → Server → Prop) (keep : Label → Bool)
    (both : ∀ turn rest left right, Related (turn :: rest) left right → keep turn.label = true →
      (right.serve turn.now turn.value).1 = (left.serve turn.now turn.value).1 ∧
        Related rest (left.serve turn.now turn.value).2 (right.serve turn.now turn.value).2)
    (one : ∀ turn rest left right, Related (turn :: rest) left right → keep turn.label = false →
      Related rest (left.serve turn.now turn.value).2 right)
    {turns : List (Turn Label)} {left right : Server} (related : Related turns left right) :
    (right.serveAll (turns.filter (keep ·.label))).1 = (left.serveAll turns).1.filter (keep ·.1) ∧
      Related [] (left.serveAll turns).2 (right.serveAll (turns.filter (keep ·.label))).2 := by
  induction turns generalizing left right with
  | nil => exact ⟨rfl, related⟩
  | cons turn rest ih =>
    rw [serveAll_cons]
    cases kept : keep turn.label with
    | true =>
      obtain ⟨same, behind⟩ := both turn rest left right related kept
      obtain ⟨results, last⟩ := ih behind
      simp only [List.filter_cons, kept, if_true, serveAll_cons, same, results]
      exact ⟨trivial, last⟩
    | false =>
      obtain ⟨results, last⟩ := ih (one turn rest left right related kept)
      simp only [List.filter_cons, kept, Bool.false_eq_true, if_false]
      exact ⟨results, last⟩

end Server

end RespKeyspace
