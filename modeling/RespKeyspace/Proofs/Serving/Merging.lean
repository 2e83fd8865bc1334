import RespKeyspace.Proofs.Serving.Turns
import RespKeyspace.Proofs.Session.Recall

/-! Requests of two clients merged into one order, and what they make of the keys. A value that names
another key leaves a key as it is, and what the keys hold is the latest assignment to each. -/

namespace RespKeyspace

/-- The two clients. -/
inductive Side where
  | left
  | right
deriving DecidableEq, Repr

namespace Side

variable {Item Image : Type}

def other : Side → Side
  | .left => .right
  | .right => .left

def part (side : Side) (merged : List (Side × Item)) : List Item :=
  (merged.filter (·.1 = side)).map Prod.snd

/-- Two lists put together, each of them in its own order. -/
structure Merges (left right : List Item) (merged : List (Side × Item)) : Prop where
  left : Side.left.part merged = left
  right : Side.right.part merged = right

variable {left right : List Item} {merged : List (Side × Item)}

theorem mem_part_iff {side : Side} {item : Item} :
    item ∈ side.part merged ↔ (side, item) ∈ merged := by
  unfold part
  constructor
  · intro member
    obtain ⟨⟨_, _⟩, inside, rfl⟩ := List.mem_map.mp member
    obtain ⟨here, same⟩ := List.mem_filter.mp inside
    obtain rfl := of_decide_eq_true same
    exact here
  · intro member
    exact List.mem_map.mpr ⟨(side, item), List.mem_filter.mpr ⟨member, by simp⟩, rfl⟩

private theorem part_filterMap (side : Side) (image : Item → Option Image)
    (merged : List (Side × Item)) :
    side.part (merged.filterMap fun (side, item) => (image item).map (side, ·)) =
      (side.part merged).filterMap image := by
  induction merged with
  | nil => rfl
  | cons first rest ih =>
    obtain ⟨owner, item⟩ := first
    unfold part at ih ⊢
    cases made : image item with
    | none => by_cases same : owner = side <;> simp [made, same, ih]
    | some other => by_cases same : owner = side <;> simp [made, same, ih]

theorem Merges.filterMap (merges : Merges left right merged) (image : Item → Option Image) :
    Merges (left.filterMap image) (right.filterMap image)
      (merged.filterMap fun (side, item) => (image item).map (side, ·)) where
  left := by rw [part_filterMap, merges.left]
  right := by rw [part_filterMap, merges.right]

theorem Merges.perm (merges : Merges left right merged) :
    (left ++ right).Perm (merged.map Prod.snd) := by
  rw [← merges.left, ← merges.right]
  unfold part
  rw [← List.map_append]
  apply List.Perm.map
  have other : ∀ item : Side × Item, decide (item.1 = .right) = !decide (item.1 = .left) := by
    rintro ⟨owner, item⟩
    cases owner <;> rfl
  simp only [other]
  exact List.filter_append_perm _ merged

theorem Merges.mem_iff (merges : Merges left right merged) {item : Item} :
    item ∈ merged.map Prod.snd ↔ item ∈ left ++ right :=
  merges.perm.mem_iff.symm

end Side

theorem Table.perm_of_find? {Key Value : Type} [DecidableEq Key] {first second : Table Key Value}
    (same : ∀ key, first.find? key = second.find? key) : first.entries.Perm second.entries := by
  apply (List.perm_ext_iff_of_nodup first.nodup.of_map second.nodup.of_map).mpr
  rintro ⟨key, value⟩
  rw [← find?_eq_some_iff, ← find?_eq_some_iff, same key]

namespace Value

/-- The key that an accepted GET or SET names. -/
def key? (value : Value) : Option Bytes :=
  match value.command with
  | .ok (.get key) => some key
  | .ok (.set assignment) => some assignment.key
  | _ => none

/-- Requests that name no key in common. -/
def Apart (first second : List Value) : Prop :=
  ∀ one ∈ first, ∀ other ∈ second, ∀ key, one.key? = some key → other.key? ≠ some key

theorem Apart.symm {first second : List Value} (apart : Apart first second) : Apart second first :=
  fun one member other inside key named same => apart other inside one member key same named

/-- The values that carry to replicas what requests assign. -/
def copies (values : List Value) : List Value :=
  values.filterMap fun value => value.write?.map Assignment.toValue

end Value

namespace Assignment

variable {writes : List Assignment} {key : Bytes}

theorem exists_latest? {written : Assignment} (member : written ∈ writes) :
    ∃ last, latest? writes written.key = some last := by
  apply Option.isSome_iff_exists.mp
  unfold latest?
  rw [List.find?_isSome]
  exact ⟨written, List.mem_reverse.mpr member, by simp⟩

private theorem latest?_replicate (count : Nat) (written : Assignment) (key : Bytes) :
    latest? (List.replicate (count + 1) written) key = latest? [written] key := by
  induction count with
  | zero => rfl
  | succ count ih =>
    rw [List.replicate_succ', latest?_append, ih]
    cases latest? [written] key <;> rfl

/-- Copies in a row, without lifetimes, do not change which assignment is the last one. -/
theorem latest?_copies (count : Nat) (writes : List Assignment) (key : Bytes) :
    latest? (writes.flatMap fun written => List.replicate (count + 1) written.permanent) key =
      (latest? writes key).map permanent := by
  induction writes with
  | nil => rfl
  | cons first rest ih =>
    rw [List.flatMap_cons, latest?_append, ih, latest?_replicate, latest?_singleton,
      ← List.singleton_append, latest?_append, latest?_singleton, Option.map_or]
    by_cases same : first.key = key <;> simp [permanent, same]

end Assignment

/-- What a frame assigns at a replica. -/
def Frame.write? : Frame → Option Assignment
  | .value content => content.write?
  | .snapshot _ => none

namespace Keyspace

variable (value : Value) (now : Nat) {key : Bytes} {left right : Keyspace}

theorem find?_apply_of_ne {value : Value} (other : value.key? ≠ some key) (keys : Keyspace) :
    (value.apply now keys).find? key = keys.find? key := by
  unfold Value.key? at other
  unfold Value.apply
  cases asked : value.command with
  | error refusal => rfl
  | ok command =>
    cases command with
    | get named =>
      have differ : key ≠ named := fun same => other (by simp [asked, same])
      simp [find?_get, differ]
    | set assignment =>
      have differ : key ≠ assignment.key := fun same => other (by simp [asked, same])
      simp [differ]
    | _ => rfl

theorem find?_apply_congr (same : left.find? key = right.find? key) :
    (value.apply now left).find? key = (value.apply now right).find? key := by
  unfold Value.apply
  cases value.command with
  | error refusal => exact same
  | ok command =>
    cases command with
    | get named =>
      dsimp only
      rw [find?_get, find?_get]
      split
      · rename_i named
        rw [← named, same]
      · exact same
    | set assignment => simp [same]
    | _ => exact same

/-- Keys that hold what was last assigned to each of them, and not yet over. -/
def Current (keys : Keyspace) (now : Nat) (writes : List Assignment) : Prop :=
  ∀ key written, Assignment.latest? writes key = some written →
    ∃ entry, keys.find? key = some entry ∧ entry.content = written.content ∧
      entry.isExpired now = false

variable {keys : Keyspace} {writes : List Assignment}

/-- At one time, requests keep what was assigned: a lifetime is not over as it begins. -/
theorem Current.apply (current : keys.Current now writes) :
    (value.apply now keys).Current now (writes ++ value.write?.toList) := by
  cases assigned : value.write? with
  | none =>
    intro key written latest
    simp only [Option.toList_none, List.append_nil] at latest
    obtain ⟨entry, held, content, alive⟩ := current key written latest
    refine ⟨entry, ?_, content, alive⟩
    unfold Value.apply
    cases asked : value.command with
    | error refusal => exact held
    | ok command =>
      cases command with
      | get named =>
        dsimp only
        rw [find?_get]
        split
        · rename_i same
          rw [← same, held]
          simp [Option.filter, alive]
        · exact held
      | set assignment => simp [Value.write?, asked] at assigned
      | _ => exact held
  | some assignment =>
    have accepted := Value.write?_eq_some_iff.mp assigned
    intro key written latest
    rw [Option.toList_some, Assignment.latest?_append, Assignment.latest?_singleton] at latest
    simp only [Value.apply, accepted, find?_set]
    by_cases same : assignment.key = key
    · rw [if_pos same, Option.some_or] at latest
      cases latest
      exact ⟨_, if_pos same.symm, rfl, Value.not_isExpired_of_write? assigned now⟩
    · rw [if_neg same, Option.none_or] at latest
      rw [if_neg (Ne.symm same)]
      exact current key written latest

end Keyspace

end RespKeyspace
