import RespKeyspace.Bytes

/-! UTF-8 in two strengths: a strict reading that refuses ill-formed bytes, and a
lossy one that puts U+FFFD in place of each maximal ill-formed part. -/

namespace RespKeyspace.Utf8

/-- The text of well-formed bytes. -/
def decode? (bytes : Bytes) : Option String := String.fromUTF8? ⟨bytes.toArray⟩

/-- The bytes read as a text are exactly those the text is written with. -/
theorem decode?_eq_some_iff {bytes : Bytes} {text : String} :
    decode? bytes = some text ↔ bytes = Bytes.ofText text := by
  unfold decode? String.fromUTF8? Bytes.ofText
  constructor
  · intro found
    split at found
    · cases found
      rfl
    · simp at found
  · rintro rfl
    have valid := text.isValidUTF8
    simp only [Array.toArray_toList]
    exact dif_pos valid

/-- A character whose first bytes are read: how many bytes are owed, the range
of the next one, and the bits read so far. -/
structure Open where
  owed : Nat
  low : UInt8
  high : UInt8
  bits : Nat
deriving Repr, DecidableEq

def replacement : Char := '\uFFFD'

/-- Begin a character at `byte`: the characters finished by it, and the one left
open. The ranges exclude overlong forms, surrogates and all above U+10FFFF. -/
def lead (byte : UInt8) : List Char × Option Open :=
  if byte < 0x80 then ([Char.ofNat byte.toNat], none)
  else if byte < 0xC2 then ([replacement], none)
  else if byte < 0xE0 then ([], some ⟨1, 0x80, 0xBF, byte.toNat - 0xC0⟩)
  else if byte = 0xE0 then ([], some ⟨2, 0xA0, 0xBF, 0⟩)
  else if byte = 0xED then ([], some ⟨2, 0x80, 0x9F, 0x0D⟩)
  else if byte < 0xF0 then ([], some ⟨2, 0x80, 0xBF, byte.toNat - 0xE0⟩)
  else if byte = 0xF0 then ([], some ⟨3, 0x90, 0xBF, 0⟩)
  else if byte < 0xF4 then ([], some ⟨3, 0x80, 0xBF, byte.toNat - 0xF0⟩)
  else if byte = 0xF4 then ([], some ⟨3, 0x80, 0x8F, 4⟩)
  else ([replacement], none)

/-- Read one more byte. A byte that cannot continue the open character closes it
as ill-formed and begins the next one. -/
def step : Option Open → UInt8 → List Char × Option Open
  | none, byte => lead byte
  | some part, byte =>
    if part.low ≤ byte ∧ byte ≤ part.high then
      let bits := part.bits * 64 + (byte.toNat - 0x80)
      if part.owed ≤ 1 then ([Char.ofNat bits], none)
      else ([], some ⟨part.owed - 1, 0x80, 0xBF, bits⟩)
    else
      let (finished, next) := lead byte
      (replacement :: finished, next)

/-- Read to the end, with the characters so far held newest first. A character
still open at the end is ill-formed. -/
def decodeFrom : List Char → Option Open → Bytes → List Char
  | done, none, [] => done.reverse
  | done, some _, [] => (replacement :: done).reverse
  | done, part, byte :: rest =>
    let (finished, next) := step part byte
    decodeFrom (finished.reverse ++ done) next rest

variable {byte : UInt8}

theorem decodeFrom_eq (done : List Char) (state : Option Open) (bytes : Bytes) :
    decodeFrom done state bytes = done.reverse ++ decodeFrom [] state bytes := by
  induction bytes generalizing done state with
  | nil => cases state <;> simp [decodeFrom]
  | cons byte rest ih =>
    simp only [decodeFrom]
    rw [ih, ih ((step state byte).1.reverse ++ [])]
    simp

theorem decodeFrom_cons (state : Option Open) (byte : UInt8) (rest : Bytes) :
    decodeFrom [] state (byte :: rest) =
      (step state byte).1 ++ decodeFrom [] (step state byte).2 rest := by
  simp only [decodeFrom]
  rw [decodeFrom_eq]
  simp

theorem decodeFrom_ascii (small : byte < 0x80) (rest : Bytes) :
    decodeFrom [] none (byte :: rest) = Char.ofNat byte.toNat :: decodeFrom [] none rest := by
  simp [decodeFrom_cons, step, lead, small]

/-- The text of any bytes, each maximal ill-formed part read as U+FFFD. -/
def decodeLossy (bytes : Bytes) : String := String.ofList (decodeFrom [] none bytes)

end RespKeyspace.Utf8
