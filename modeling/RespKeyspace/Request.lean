import RespKeyspace.Text.Uppercase
import RespKeyspace.Text.Utf8
import RespKeyspace.Value.Printer

/-! Requests: a keyword and its arguments, as a non-empty array of bulk strings. -/

namespace RespKeyspace

structure Request where
  keyword : Bytes
  arguments : List Bytes
deriving Repr, DecidableEq

namespace Request

/-- The contents of bulk strings; nothing if some value is no bulk string. -/
def contents? : List Value → Option (List Bytes)
  | [] => some []
  | .bulk content :: rest => (contents? rest).map (content :: ·)
  | _ :: _ => none

/-- The request that a value carries. -/
def ofValue? : Value → Option Request
  | .array elements =>
    match contents? elements with
    | some (keyword :: arguments) => some ⟨keyword, arguments⟩
    | _ => none
  | _ => none

def toValue (request : Request) : Value := Value.ofParts (request.keyword :: request.arguments)

/-- The name by which the command is looked up: the keyword as text, in upper
case. -/
def name (request : Request) : String := Text.uppercase (Utf8.decodeLossy request.keyword)

theorem contents?_map_bulk (parts : List Bytes) : contents? (parts.map .bulk) = some parts := by
  induction parts with
  | nil => rfl
  | cons part rest ih => simp [contents?, ih]

theorem eq_map_bulk_of_contents? {elements : List Value} {parts : List Bytes}
    (found : contents? elements = some parts) : elements = parts.map .bulk := by
  induction elements generalizing parts with
  | nil => simpa [contents?] using found.symm
  | cons first rest ih =>
    cases first with
    | bulk content =>
      obtain ⟨tail, read, rfl⟩ := Option.map_eq_some_iff.mp found
      simp [ih read]
    | _ => simp [contents?] at found

/-- A value carries a request exactly when it is the value of that request. -/
theorem ofValue?_eq_some_iff {value : Value} {request : Request} :
    ofValue? value = some request ↔ value = request.toValue := by
  constructor
  · intro found
    unfold ofValue? at found
    split at found
    · split at found
      · rename_i elements keyword arguments read
        cases found
        rw [eq_map_bulk_of_contents? read]
        rfl
      · simp at found
    · simp at found
  · rintro rfl
    simp [ofValue?, toValue, Value.ofParts, contents?, contents?_map_bulk]

end Request

end RespKeyspace
