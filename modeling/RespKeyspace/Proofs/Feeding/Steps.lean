import RespKeyspace.Feeds
import RespKeyspace.Proofs.Feeding.Effects

/-! The steps of a primary and of the receivers of its feeds, each by what it changes: nothing about
feeding, or by one value handed on, or by one receiver attached or let go. -/

namespace RespKeyspace

/-- A server on which nothing about feeding has changed. -/
structure Server.Unmoved (before after : Server) : Prop where
  isPrimary : after.role.isPrimary = before.role.isPrimary
  replica? : ∀ address, after.replica? address = before.replica? address
  offset : after.offset = before.offset
  next : after.outboxes.next = before.outboxes.next
  isOpen : ∀ box, after.outboxes.isOpen box = before.outboxes.isOpen box
  frames : ∀ box, after.outboxes.frames box = before.outboxes.frames box

/-- A server that has fed a value to its replicas. -/
structure Server.Fed (value : Value) (before after : Server) : Prop where
  isPrimary : after.role.isPrimary = before.role.isPrimary
  replica? : ∀ address, after.replica? address =
    (before.replica? address).filter fun box => before.outboxes.isOpen box
  moved : before.HasLiveReplica → after.offset = before.offset + Server.frameLength value
  unmoved : ¬ before.HasLiveReplica → after.offset = before.offset
  next : after.outboxes.next = before.outboxes.next
  isOpen : ∀ box, after.outboxes.isOpen box = before.outboxes.isOpen box
  frames : ∀ box, after.outboxes.frames box = before.outboxes.frames box ++
    if before.outboxes.isOpen box = true then List.replicate (before.places box) (.value value)
    else []

theorem Server.fed_propagate (server : Server) (value : Value) :
    Fed value server (server.propagate value) where
  isPrimary := server.isPrimary_propagate value
  replica? address := server.replica?_propagate address value
  moved := server.offset_propagate_of_live value
  unmoved := server.offset_propagate_of_not_live value
  next := server.next_propagate value
  isOpen box := server.isOpen_propagate box value
  frames box := server.frames_propagate box value

theorem Server.fed_assign (server : Server) (now : Nat) (assignment : Assignment) :
    Fed assignment.toValue server (server.assign now assignment) where
  isPrimary := server.isPrimary_assign now assignment
  replica? := server.replica?_assign now assignment
  moved := server.offset_assign_of_live now assignment
  unmoved := server.offset_assign_of_not_live now assignment
  next := server.next_assign now assignment
  isOpen := server.isOpen_assign now assignment
  frames := server.frames_assign now assignment

theorem Server.unmoved_keys (server : Server) (keys : Keyspace) :
    Unmoved server { server with keys } where
  isPrimary := rfl
  replica? _ := rfl
  offset := rfl
  next := rfl
  isOpen _ := rfl
  frames _ := rfl

private theorem Server.unmoved_collect (server : Server) (box : OutboxId) :
    Unmoved server { server with outboxes := server.outboxes.update box .collect } where
  isPrimary := rfl
  replica? _ := rfl
  offset := rfl
  next := server.outboxes.next_update box _
  isOpen := server.outboxes.isOpen_collect box
  frames := server.outboxes.frames_collect box

namespace Feeds

/-- The values that a step hands on to the replicas. -/
def Step.fed : Step → List Value
  | .request value => (value.write?.map Assignment.toValue).toList
  | .propagate value => [value]
  | _ => []

/-- A step other than one on the link to a primary. -/
def Step.isLocal : Step → Bool
  | .fromPrimary _ => false
  | _ => true

def run (feeds : Feeds) (steps : List Step) : Feeds :=
  steps.foldl (fun current step => (current.step step).2) feeds

@[simp] theorem run_nil (feeds : Feeds) : feeds.run [] = feeds := rfl

theorem run_append (feeds : Feeds) (first second : List Step) :
    feeds.run (first ++ second) = (feeds.run first).run second := List.foldl_append

theorem run_cons (feeds : Feeds) (step : Step) (steps : List Step) :
    feeds.run (step :: steps) = (feeds.step step).2.run steps := rfl

/-- The values handed on in a run. -/
def log (steps : List Step) : List Value := steps.flatMap Step.fed

@[simp] theorem log_nil : log [] = [] := rfl

theorem log_concat (steps : List Step) (step : Step) :
    log (steps ++ [step]) = log steps ++ step.fed := by
  simp [log]

/-- All that a local step can do: it feeds one value or nothing, or it changes who is fed. -/
theorem step_cases (feeds : Feeds) {step : Step} (here : step.isLocal = true) :
    ((feeds.step step).2.receivers = feeds.receivers ∧
      ((∃ value, step.fed = [value] ∧ Server.Fed value feeds.server (feeds.step step).2.server) ∨
        step.fed = [] ∧ Server.Unmoved feeds.server (feeds.step step).2.server)) ∨
    ∃ address, step = .attach address ∨ step = .detach address ∨ step = .hangUp address := by
  cases step with
  | request value =>
    refine .inl ⟨rfl, ?_⟩
    rcases feeds.server.serve_cases feeds.now value with
      ⟨assignment, accepted, served⟩ | ⟨other, keys, served⟩
    · refine .inl ⟨assignment.toValue, by simp [Step.fed, accepted], ?_⟩
      simpa [Feeds.step, served] using feeds.server.fed_assign feeds.now assignment
    · refine .inr ⟨by simp [Step.fed, other], ?_⟩
      simpa [Feeds.step, served] using feeds.server.unmoved_keys keys
  | fromPrimary value => cases here
  | attach address => exact .inr ⟨address, .inl rfl⟩
  | detach address => exact .inr ⟨address, .inr (.inl rfl)⟩
  | hangUp address => exact .inr ⟨address, .inr (.inr rfl)⟩
  | drain address =>
    left
    simp only [Feeds.step, updateHeld]
    cases feeds.receivers.find? address with
    | none => exact ⟨rfl, .inr ⟨rfl, feeds.server.unmoved_keys _⟩⟩
    | some box => exact ⟨rfl, .inr ⟨rfl, feeds.server.unmoved_collect box⟩⟩
  | propagate value => exact .inl ⟨rfl, .inl ⟨value, rfl, feeds.server.fed_propagate value⟩⟩
  | report => exact .inl ⟨rfl, .inr ⟨rfl, feeds.server.unmoved_keys _⟩⟩
  | inspect key => exact .inl ⟨rfl, .inr ⟨rfl, feeds.server.unmoved_keys _⟩⟩
  | advance milliseconds => exact .inl ⟨rfl, .inr ⟨rfl, feeds.server.unmoved_keys _⟩⟩

/-! Letting go of a receiving end, and attaching one. -/

section

variable (feeds : Feeds) (address other : String) (box : OutboxId)

@[simp] theorem replica?_letGo :
    (feeds.letGo address).server.replica? other = feeds.server.replica? other := by
  unfold letGo updateHeld
  cases feeds.receivers.find? address <;> rfl

@[simp] theorem role_letGo : (feeds.letGo address).server.role = feeds.server.role := by
  unfold letGo updateHeld
  cases feeds.receivers.find? address <;> rfl

@[simp] theorem offset_letGo : (feeds.letGo address).server.offset = feeds.server.offset := by
  unfold letGo updateHeld
  cases feeds.receivers.find? address <;> rfl

@[simp] theorem next_letGo :
    (feeds.letGo address).server.outboxes.next = feeds.server.outboxes.next := by
  unfold letGo updateHeld
  cases feeds.receivers.find? address <;> simp

@[simp] theorem frames_letGo :
    (feeds.letGo address).server.outboxes.frames box = feeds.server.outboxes.frames box := by
  unfold letGo updateHeld
  cases feeds.receivers.find? address <;> simp

theorem isOpen_letGo :
    (feeds.letGo address).server.outboxes.isOpen box =
      (feeds.server.outboxes.isOpen box && feeds.receivers.find? address != some box) := by
  unfold letGo updateHeld
  cases feeds.receivers.find? address with
  | none => simp
  | some held => by_cases same : held = box <;> simp [same, bne, beq_eq_false_iff_ne.mpr]

@[simp] theorem find?_letGo :
    (feeds.letGo address).receivers.find? other =
      if other = address then none else feeds.receivers.find? other := by
  simp [letGo]

theorem replica?_attach (primary : feeds.server.role.isPrimary = true) :
    (feeds.attach address).server.replica? other =
      if other = address then some feeds.server.outboxes.next else feeds.server.replica? other := by
  have recorded := Server.replica?_register
    { (feeds.letGo address).server with outboxes := (feeds.letGo address).server.outboxes.create }
    address other feeds.server.outboxes.next
  simpa [attach, primary, Server.replica?] using recorded

@[simp] theorem isPrimary_attach :
    (feeds.attach address).server.role.isPrimary = feeds.server.role.isPrimary := by
  simp [attach]

@[simp] theorem offset_attach : (feeds.attach address).server.offset = feeds.server.offset := by
  simp [attach, Server.register]

@[simp] theorem next_attach :
    (feeds.attach address).server.outboxes.next = feeds.server.outboxes.next + 1 := by
  simp [attach, Server.register]

@[simp] theorem frames_attach :
    (feeds.attach address).server.outboxes.frames box = feeds.server.outboxes.frames box := by
  simp [attach, Server.register]

theorem isOpen_attach :
    (feeds.attach address).server.outboxes.isOpen box =
      (box == feeds.server.outboxes.next ||
        feeds.server.outboxes.isOpen box && feeds.receivers.find? address != some box) := by
  simp [attach, Server.register, Outboxes.isOpen_create, isOpen_letGo]

@[simp] theorem find?_attach :
    (feeds.attach address).receivers.find? other =
      if other = address then some feeds.server.outboxes.next
      else feeds.receivers.find? other := by
  by_cases same : other = address <;> simp [attach, same]

end

end Feeds

end RespKeyspace
