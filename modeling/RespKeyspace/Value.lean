import RespKeyspace.Bytes

/-! The values of the wire protocol, the limits a peer has to keep, and the shape
of a request. -/

namespace RespKeyspace

inductive Value where
  | simple (text : String)
  | error (text : String)
  | integer (number : Int64)
  | bulk (content : Bytes)
  | array (elements : List Value)
  | null
deriving Repr, Inhabited

namespace Value

/-- The longest bulk string a peer may announce. -/
def maxBulkLength : Nat := 512 * 1024 * 1024

def maxArrayLength : Nat := 1000000

/-- The deepest place of an element: only an empty array may stand there. -/
def maxDepth : Nat := 8

/-- The array of bulk strings that carries a request. -/
def ofParts (parts : List Bytes) : Value := .array (parts.map .bulk)

def ofWords (words : List String) : Value := ofParts (words.map Bytes.ofText)

mutual

/-- Equality, decided part by part. -/
def same : Value → Value → Bool
  | .simple left, .simple right => left == right
  | .error left, .error right => left == right
  | .integer left, .integer right => left == right
  | .bulk left, .bulk right => left == right
  | .array left, .array right => sameAll left right
  | .null, .null => true
  | _, _ => false

def sameAll : List Value → List Value → Bool
  | [], [] => true
  | left :: lefts, right :: rights => same left right && sameAll lefts rights
  | _, _ => false

end

mutual

theorem same_iff : (left right : Value) → (same left right = true ↔ left = right)
  | .array lefts, .array rights => by simp [same, sameAll_iff lefts rights]
  | .simple _, right => by cases right <;> simp [same]
  | .error _, right => by cases right <;> simp [same]
  | .integer _, right => by cases right <;> simp [same]
  | .bulk _, right => by cases right <;> simp [same]
  | .null, right => by cases right <;> simp [same]
  | .array _, .simple _ => by simp [same]
  | .array _, .error _ => by simp [same]
  | .array _, .integer _ => by simp [same]
  | .array _, .bulk _ => by simp [same]
  | .array _, .null => by simp [same]

theorem sameAll_iff : (lefts rights : List Value) → (sameAll lefts rights = true ↔ lefts = rights)
  | [], [] => by simp [sameAll]
  | [], _ :: _ => by simp [sameAll]
  | _ :: _, [] => by simp [sameAll]
  | left :: lefts, right :: rights => by
    simp [sameAll, same_iff left right, sameAll_iff lefts rights]

end

instance : DecidableEq Value := fun left right => decidable_of_iff _ (same_iff left right)

end Value

end RespKeyspace
