import RespKeyspace.Snapshot

/-! Outboxes: queues of frames on their way to a peer. Everything a peer is sent
passes through one outbox, so frames never mix. -/

namespace RespKeyspace

/-- What is queued as one piece. -/
inductive Frame where
  | value (content : Value)
  | snapshot (payload : Bytes)
deriving Repr, DecidableEq

def Frame.encode : Frame → Bytes
  | .value content => content.encode
  | .snapshot payload => Snapshot.encode payload

/-- Every frame ever queued, newest first, how many of them were handed over, and
whether the receiving end is still there. -/
structure Outbox where
  newestFirst : List Frame
  handedOver : Nat
  isOpen : Bool
deriving Repr, DecidableEq

namespace Outbox

def fresh : Outbox := ⟨[], 0, true⟩

def frames (outbox : Outbox) : List Frame := outbox.newestFirst.reverse

/-- The frames queued and not yet handed over. -/
def waiting (outbox : Outbox) : List Frame := outbox.frames.drop outbox.handedOver

/-- Queue a frame; without a receiving end it is lost. -/
def push (outbox : Outbox) (frame : Frame) : Outbox :=
  if outbox.isOpen then { outbox with newestFirst := frame :: outbox.newestFirst } else outbox

def collect (outbox : Outbox) : Outbox :=
  { outbox with handedOver := outbox.newestFirst.length }

def close (outbox : Outbox) : Outbox := { outbox with isOpen := false }

@[simp] theorem frames_fresh : fresh.frames = [] := rfl

theorem frames_push (outbox : Outbox) (frame : Frame) :
    (outbox.push frame).frames =
      if outbox.isOpen then outbox.frames ++ [frame] else outbox.frames := by
  by_cases opened : outbox.isOpen = true <;> simp [push, frames, opened]

@[simp] theorem frames_collect (outbox : Outbox) : outbox.collect.frames = outbox.frames := rfl

@[simp] theorem waiting_collect (outbox : Outbox) : outbox.collect.waiting = [] := by
  simp [waiting, collect, frames]

end Outbox

/-- The place of an outbox among all that were ever made. -/
abbrev OutboxId := Nat

/-- All outboxes ever made, in order. -/
structure Outboxes where
  boxes : List Outbox
deriving Repr, DecidableEq

namespace Outboxes

def none : Outboxes := ⟨[]⟩

/-- The place that the next outbox will have. -/
def next (outboxes : Outboxes) : OutboxId := outboxes.boxes.length

/-- Make one more outbox, at `next`. -/
def create (outboxes : Outboxes) : Outboxes := ⟨outboxes.boxes ++ [.fresh]⟩

def find? (outboxes : Outboxes) (box : OutboxId) : Option Outbox := outboxes.boxes[box]?

/-- Whether a frame queued there can still arrive. -/
def isOpen (outboxes : Outboxes) (box : OutboxId) : Bool :=
  (outboxes.find? box).any Outbox.isOpen

def update (outboxes : Outboxes) (box : OutboxId) (change : Outbox → Outbox) : Outboxes :=
  ⟨outboxes.boxes.modify box change⟩

def push (outboxes : Outboxes) (box : OutboxId) (frame : Frame) : Outboxes :=
  outboxes.update box (·.push frame)

def pushAll (outboxes : Outboxes) (targets : List OutboxId) (frame : Frame) : Outboxes :=
  targets.foldl (fun current box => current.push box frame) outboxes

def waiting (outboxes : Outboxes) (box : OutboxId) : List Frame :=
  ((outboxes.find? box).map Outbox.waiting).getD []

def frames (outboxes : Outboxes) (box : OutboxId) : List Frame :=
  ((outboxes.find? box).map Outbox.frames).getD []

@[simp] theorem find?_update (outboxes : Outboxes) (box other : OutboxId)
    (change : Outbox → Outbox) :
    (outboxes.update box change).find? other =
      if box = other then (outboxes.find? other).map change else outboxes.find? other := by
  simp only [find?, update, List.getElem?_modify]
  by_cases same : box = other <;> simp [same]

theorem find?_create (outboxes : Outboxes) (other : OutboxId) :
    outboxes.create.find? other =
      if other = outboxes.next then some .fresh else outboxes.find? other := by
  unfold find? create
  rcases Nat.lt_trichotomy other outboxes.next with below | same | above
  · rw [if_neg (Nat.ne_of_lt below), List.getElem?_append_left below]
  · subst same; simp [next]
  · rw [if_neg (Nat.ne_of_gt above), List.getElem?_eq_none (by simpa [next] using Nat.succ_le_of_lt above),
      List.getElem?_eq_none (Nat.le_of_lt above)]

end Outboxes

end RespKeyspace
