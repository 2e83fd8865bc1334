import RespKeyspace.Outbox

/-! What the operations on outboxes do to the frames of each one, to whether its
receiving end is there, and to the place of the next one. -/

namespace RespKeyspace

namespace Outbox

@[simp] theorem isOpen_push (outbox : Outbox) (frame : Frame) :
    (outbox.push frame).isOpen = outbox.isOpen := by
  by_cases opened : outbox.isOpen = true <;> simp [push, opened]

@[simp] theorem frames_close (outbox : Outbox) : outbox.close.frames = outbox.frames := rfl

@[simp] theorem isOpen_close (outbox : Outbox) : outbox.close.isOpen = false := rfl

@[simp] theorem isOpen_collect (outbox : Outbox) : outbox.collect.isOpen = outbox.isOpen := rfl

end Outbox

namespace Outboxes

variable (outboxes : Outboxes) (box other : OutboxId) (frame : Frame)

@[simp] theorem next_update (change : Outbox → Outbox) :
    (outboxes.update box change).next = outboxes.next := by
  simp [next, update]

@[simp] theorem next_push : (outboxes.push box frame).next = outboxes.next :=
  outboxes.next_update box _

@[simp] theorem next_create : outboxes.create.next = outboxes.next + 1 := by
  simp [next, create]

theorem isOpen_update_of_same {change : Outbox → Outbox}
    (same : ∀ outbox, (change outbox).isOpen = outbox.isOpen) :
    (outboxes.update box change).isOpen other = outboxes.isOpen other := by
  unfold isOpen
  rw [find?_update]
  split
  · cases outboxes.find? other <;> simp [same]
  · rfl

theorem frames_update_of_same {change : Outbox → Outbox}
    (same : ∀ outbox, (change outbox).frames = outbox.frames) :
    (outboxes.update box change).frames other = outboxes.frames other := by
  unfold frames
  rw [find?_update]
  split
  · cases outboxes.find? other <;> simp [same]
  · rfl

@[simp] theorem isOpen_push : (outboxes.push box frame).isOpen other = outboxes.isOpen other :=
  outboxes.isOpen_update_of_same box other fun outbox => outbox.isOpen_push frame

theorem frames_push :
    (outboxes.push box frame).frames other =
      outboxes.frames other ++ if box = other ∧ outboxes.isOpen other = true then [frame] else [] := by
  unfold frames push isOpen
  rw [find?_update]
  by_cases same : box = other
  · subst same
    cases outboxes.find? box with
    | none => simp
    | some outbox =>
      by_cases opened : outbox.isOpen = true <;> simp [Outbox.frames_push, opened]
  · simp [same]

theorem frames_push_self (opened : outboxes.isOpen box = true) :
    (outboxes.push box frame).frames box = outboxes.frames box ++ [frame] := by
  simp [frames_push, opened]

theorem frames_push_of_ne (differ : box ≠ other) :
    (outboxes.push box frame).frames other = outboxes.frames other := by
  simp [frames_push, differ]

@[simp] theorem isOpen_close :
    (outboxes.update box .close).isOpen other = (outboxes.isOpen other && box != other) := by
  unfold isOpen
  rw [find?_update]
  by_cases same : box = other
  · subst same
    cases outboxes.find? box <;> simp
  · simp [same]

@[simp] theorem frames_close : (outboxes.update box .close).frames other = outboxes.frames other :=
  outboxes.frames_update_of_same box other Outbox.frames_close

@[simp] theorem isOpen_collect :
    (outboxes.update box .collect).isOpen other = outboxes.isOpen other :=
  outboxes.isOpen_update_of_same box other Outbox.isOpen_collect

@[simp] theorem frames_collect :
    (outboxes.update box .collect).frames other = outboxes.frames other :=
  outboxes.frames_update_of_same box other Outbox.frames_collect

theorem find?_next : outboxes.find? outboxes.next = Option.none := by
  simp [find?, next]

@[simp] theorem frames_create : outboxes.create.frames other = outboxes.frames other := by
  unfold frames
  rw [find?_create]
  split
  · rename_i same
    subst same
    simp [find?_next]
  · rfl

theorem isOpen_create :
    outboxes.create.isOpen other = (other == outboxes.next || outboxes.isOpen other) := by
  unfold isOpen
  rw [find?_create]
  by_cases same : other = outboxes.next
  · subst same
    simp [Outbox.fresh]
  · simp [same]

@[simp] theorem isOpen_create_next : outboxes.create.isOpen outboxes.next = true := by
  simp [isOpen_create]

theorem frames_next : outboxes.frames outboxes.next = [] := by
  simp [frames, find?_next]

theorem pushAll_cons (targets : List OutboxId) :
    outboxes.pushAll (box :: targets) frame = (outboxes.push box frame).pushAll targets frame := rfl

@[simp] theorem next_pushAll (targets : List OutboxId) :
    (outboxes.pushAll targets frame).next = outboxes.next := by
  induction targets generalizing outboxes with
  | nil => rfl
  | cons first rest ih => rw [pushAll_cons, ih, next_push]

@[simp] theorem isOpen_pushAll (targets : List OutboxId) :
    (outboxes.pushAll targets frame).isOpen other = outboxes.isOpen other := by
  induction targets generalizing outboxes with
  | nil => rfl
  | cons first rest ih => rw [pushAll_cons, ih, isOpen_push]

/-- Of a frame queued in several outboxes, one whose receiving end is there gets as many
copies as it has places among them. -/
theorem frames_pushAll (targets : List OutboxId) :
    (outboxes.pushAll targets frame).frames other =
      outboxes.frames other ++
        if outboxes.isOpen other = true then List.replicate (targets.count other) frame else [] := by
  induction targets generalizing outboxes with
  | nil => simp [pushAll]
  | cons first rest ih =>
    rw [pushAll_cons, ih, isOpen_push, frames_push]
    by_cases opened : outboxes.isOpen other = true
    · by_cases same : first = other
      · subst same
        simp [opened, List.replicate_succ]
      · simp [opened, same]
    · simp [opened]

end Outboxes

end RespKeyspace
