import RespKeyspace.Text.AsciiCase
import RespKeyspace.Text.Uppercase.Table

/-! The upper-case form of a text, character by character and without regard to
language or position: `ß` becomes `SS` and `ı` becomes `I`. -/

namespace RespKeyspace.Text

/-- The upper-case form of one letter that lies in a run. -/
def CaseRun.upper? (run : CaseRun) (code : Nat) : Option Nat :=
  if run.first ≤ code ∧ code ≤ run.last ∧ (code - run.first) % run.stride = 0 then
    some (code + run.shift).toNat
  else none

/-- The upper-case form of a character, the character itself if it has none. -/
def upperChars (char : Char) : List Char :=
  if char.toNat < 0x80 then [char.toUpper]
  else
    match caseExpansions.lookup char.toNat with
    | some codes => codes.map Char.ofNat
    | none =>
      match caseRuns.findSome? (·.upper? char.toNat) with
      | some code => [Char.ofNat code]
      | none => [char]

def uppercase (text : String) : String := String.ofList (text.toList.flatMap upperChars)

def ofByte (byte : UInt8) : Char := Char.ofNat byte.toNat

theorem toNat_ofNat_cases (code : Nat) :
    (Char.ofNat code).toNat = code ∨ (Char.ofNat code).toNat = 0 := by
  by_cases valid : code.isValidChar
  · rw [Char.ofNat, dif_pos valid]
    exact .inl rfl
  · rw [Char.ofNat, dif_neg valid]
    exact .inr rfl

@[simp] theorem toNat_ofByte (byte : UInt8) : (ofByte byte).toNat = byte.toNat := by
  have valid : byte.toNat.isValidChar := .inl (Nat.lt_trans byte.toNat_lt (by decide))
  rw [ofByte, Char.ofNat, dif_pos valid]
  rfl

theorem ofByte_inj {left right : UInt8} : ofByte left = ofByte right ↔ left = right := by
  constructor
  · intro same
    have codes := congrArg Char.toNat same
    rw [toNat_ofByte, toNat_ofByte] at codes
    exact UInt8.toNat_inj.mp codes
  · exact congrArg ofByte

theorem upperChars_ofByte {byte : UInt8} (small : byte.toNat < 0x80) :
    upperChars (ofByte byte) = [ofByte (AsciiCase.upper byte)] := by
  have table : ∀ code < 0x80, upperChars (Char.ofNat code) =
      [ofByte (AsciiCase.upper (UInt8.ofNat code))] := by decide +kernel
  simpa [ofByte] using table byte.toNat small

end RespKeyspace.Text
