import RespKeyspace.Bytes
import RespKeyspace.Table

/-! Keys with values that may expire. An entry past its deadline stays until a
read of its key removes it. Time is a count of milliseconds. -/

namespace RespKeyspace

/-- A stored value and the time at which it expires. -/
structure Entry where
  content : Bytes
  deadline : Option Nat
deriving Repr, DecidableEq

/-- An entry has expired from its deadline on. -/
def Entry.isExpired (entry : Entry) (now : Nat) : Bool := entry.deadline.any (· ≤ now)

/-- The entries held, expired ones included. -/
structure Keyspace where
  entries : Table Bytes Entry
deriving Repr, DecidableEq

namespace Keyspace

def empty : Keyspace := ⟨.empty⟩

def size (space : Keyspace) : Nat := space.entries.size

def isEmpty (space : Keyspace) : Bool := space.entries.isEmpty

/-- The entry held for a key, expired or not. -/
def find? (space : Keyspace) (key : Bytes) : Option Entry := space.entries.find? key

/-- Store a value at time `now`, to expire after `lifetime` milliseconds if one
is given. An earlier value and its deadline are forgotten. -/
def set (space : Keyspace) (now : Nat) (key content : Bytes) (lifetime : Option Nat) : Keyspace :=
  ⟨space.entries.insert key ⟨content, lifetime.map (now + ·)⟩⟩

/-- Read a key at time `now`. An expired entry is removed and not reported. -/
def get (space : Keyspace) (now : Nat) (key : Bytes) : Option Bytes × Keyspace :=
  match space.find? key with
  | none => (none, space)
  | some entry =>
    if entry.isExpired now then (none, ⟨space.entries.erase key⟩)
    else (some entry.content, space)

@[simp] theorem find?_empty (key : Bytes) : empty.find? key = none := rfl

@[simp] theorem find?_set (space : Keyspace) (now : Nat) (key content : Bytes)
    (lifetime : Option Nat) (other : Bytes) :
    (space.set now key content lifetime).find? other =
      if other = key then some ⟨content, lifetime.map (now + ·)⟩ else space.find? other := by
  simp [set, find?]

/-- A read reports an entry that has not expired, and nothing else. -/
theorem get_fst (space : Keyspace) (now : Nat) (key : Bytes) :
    (space.get now key).1 =
      ((space.find? key).filter fun entry => !entry.isExpired now).map Entry.content := by
  unfold get
  cases space.find? key with
  | none => rfl
  | some entry => cases expired : entry.isExpired now <;> simp [Option.filter, expired]

/-- A read removes its own key's entry if that has expired, and no other entry. -/
theorem find?_get (space : Keyspace) (now : Nat) (key other : Bytes) :
    (space.get now key).2.find? other =
      if other = key then (space.find? key).filter fun entry => !entry.isExpired now
      else space.find? other := by
  unfold get
  cases found : space.find? key with
  | none => by_cases same : other = key <;> simp [same, found]
  | some entry =>
    cases expired : entry.isExpired now
    · by_cases same : other = key <;> simp [same, found, expired, Option.filter]
    · by_cases same : other = key <;> simp [find?, same, expired, Option.filter]

end Keyspace

end RespKeyspace
