/-! Association tables that hold each key once. What a table answers for a key is
said by `find?`, and every operation has one equation for it. -/

namespace RespKeyspace

/-- Keys with their values, each key once. -/
structure Table (Key Value : Type) where
  entries : List (Key × Value)
  nodup : (entries.map Prod.fst).Nodup := by simp
deriving Repr, DecidableEq

namespace Table

variable {Key Value : Type}

def empty : Table Key Value where
  entries := []

instance : Inhabited (Table Key Value) := ⟨empty⟩

def size (table : Table Key Value) : Nat := table.entries.length

def isEmpty (table : Table Key Value) : Bool := table.entries.isEmpty

def keys (table : Table Key Value) : List Key := table.entries.map Prod.fst

def values (table : Table Key Value) : List Value := table.entries.map Prod.snd

def filter (table : Table Key Value) (keep : Key → Value → Bool) : Table Key Value where
  entries := table.entries.filter fun entry => keep entry.1 entry.2
  nodup := (List.filter_sublist.map Prod.fst).nodup table.nodup

variable [DecidableEq Key]

def find? (table : Table Key Value) (key : Key) : Option Value := table.entries.lookup key

def erase (table : Table Key Value) (key : Key) : Table Key Value :=
  table.filter fun name _ => name != key

private theorem absent_erase (table : Table Key Value) (key : Key) :
    key ∉ (table.erase key).entries.map Prod.fst := by
  simp [erase, filter]

def insert (table : Table Key Value) (key : Key) (value : Value) : Table Key Value where
  entries := (key, value) :: (table.erase key).entries
  nodup := List.nodup_cons.mpr ⟨table.absent_erase key, (table.erase key).nodup⟩

private theorem lookup_filter {key other : Key} {entries : List (Key × Value)} :
    (entries.filter fun entry => entry.1 != key).lookup other =
      if other = key then none else entries.lookup other := by
  induction entries with
  | nil => simp
  | cons first rest ih =>
    rcases first with ⟨name, value⟩
    by_cases same : name = key
    · subst name
      rw [List.filter_cons_of_neg (by simp), ih, List.lookup_cons]
      by_cases asked : other = key
      · simp [asked]
      · simp [asked, beq_eq_false_iff_ne.mpr asked]
    · rw [List.filter_cons_of_pos (by simpa using same), List.lookup_cons, List.lookup_cons]
      by_cases asked : other = name
      · subst other; simp [same]
      · rw [beq_eq_false_iff_ne.mpr asked]; exact ih

@[simp] theorem find?_empty (key : Key) : (empty : Table Key Value).find? key = none := rfl

@[simp] theorem find?_erase (table : Table Key Value) (key other : Key) :
    (table.erase key).find? other = if other = key then none else table.find? other :=
  lookup_filter

@[simp] theorem find?_insert (table : Table Key Value) (key other : Key) (value : Value) :
    (table.insert key value).find? other =
      if other = key then some value else table.find? other := by
  by_cases same : other = key
  · simp [insert, find?, same]
  · have held := find?_erase table key other
    rw [if_neg same] at held ⊢
    rw [← held]
    simp [insert, find?, List.lookup_cons, beq_eq_false_iff_ne.mpr same]

end Table

end RespKeyspace
