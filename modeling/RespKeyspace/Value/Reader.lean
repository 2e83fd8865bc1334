import RespKeyspace.Reading
import RespKeyspace.Text.Utf8
import RespKeyspace.Value.Printer

/-! Reading values off the front of a buffer. A value is taken only once its last
byte is there; a header that breaks a limit is refused as soon as its line ends. -/

namespace RespKeyspace

/-- Why bytes are no frame. -/
inductive FrameFault where
  | unknownType (mark : UInt8)
  | invalidText
  | invalidInteger
  | invalidBulk
  | invalidArray
deriving Repr, DecidableEq

namespace FrameFault

def hex (byte : UInt8) : String :=
  String.ofList [Nat.digitChar (byte.toNat / 16), Nat.digitChar (byte.toNat % 16)]

def message : FrameFault → String
  | .unknownType mark => "unknown RESP type byte 0x" ++ hex mark
  | .invalidText => "invalid UTF-8 sequence"
  | .invalidInteger => "failed to parse integer"
  | .invalidBulk => "invalid bulk string"
  | .invalidArray => "invalid array"

end FrameFault

namespace Value

/-- A text line; its content has to be UTF-8. -/
def readText (make : String → Value) (content rest : Bytes) : Reading FrameFault Value :=
  match Utf8.decode? content with
  | some text => .value (make text) rest
  | none => .malformed .invalidText

/-- An integer line. Content that is not even text is reported as such. -/
def readInteger (content rest : Bytes) : Reading FrameFault Value :=
  match Decimal.signed? content with
  | some number => .value (.integer number) rest
  | none =>
    .malformed (if (Utf8.decode? content).isSome then .invalidInteger else .invalidText)

/-- What a header announces. -/
inductive Announcement where
  | absent
  | length (count : Nat)
  | refused
deriving Repr, DecidableEq

/-- The announcement in a header: -1 stands for null, and a length has to lie
between zero and `limit`. -/
def announced (limit : Nat) (content : Bytes) : Announcement :=
  match Decimal.signed? content with
  | none => .refused
  | some number =>
    if number = -1 then .absent
    else if 0 ≤ number.toInt ∧ number.toInt ≤ limit then .length number.toInt.toNat
    else .refused

def readBulk (content rest : Bytes) : Reading FrameFault Value :=
  match announced maxBulkLength content with
  | .refused => .malformed .invalidBulk
  | .absent => .value .null rest
  | .length count =>
    match Bytes.splitCount? count rest with
    | some (content, first :: second :: behind) =>
      if first = Bytes.carriageReturn ∧ second = Bytes.lineFeed then
        .value (.bulk content) behind
      else .malformed .invalidBulk
    | _ => .incomplete

/-- Read `count` elements, with those before them held newest first. -/
def readElements (element : Bytes → Reading FrameFault Value) :
    Nat → List Value → Bytes → Reading FrameFault Value
  | 0, done, rest => .value (.array done.reverse) rest
  | count + 1, done, bytes =>
    match element bytes with
    | .value value rest => readElements element count (value :: done) rest
    | .incomplete => .incomplete
    | .malformed fault => .malformed fault

/-- An array behind its header. Where no elements may stand, only an empty array
is accepted. -/
def readArray (element? : Option (Bytes → Reading FrameFault Value)) (content rest : Bytes) :
    Reading FrameFault Value :=
  match announced maxArrayLength content with
  | .refused => .malformed .invalidArray
  | .absent => .value .null rest
  | .length 0 => .value (.array []) rest
  | .length count =>
    match element? with
    | none => .malformed .invalidArray
    | some element => readElements element count [] rest

/-- Read one value, its elements with `element?`. The type is judged only once
the first line is complete. -/
def readFrame (element? : Option (Bytes → Reading FrameFault Value)) (bytes : Bytes) :
    Reading FrameFault Value :=
  match Bytes.splitLine? bytes with
  | none => .incomplete
  | some ([], _) => .malformed (.unknownType Bytes.carriageReturn)
  | some (mark :: content, rest) =>
    if mark = simpleMark then readText .simple content rest
    else if mark = errorMark then readText .error content rest
    else if mark = integerMark then readInteger content rest
    else if mark = bulkMark then readBulk content rest
    else if mark = arrayMark then readArray element? content rest
    else .malformed (.unknownType mark)

/-- Read a value below which elements may lie `levels` deep. -/
def readNested : Nat → Bytes → Reading FrameFault Value
  | 0 => readFrame none
  | levels + 1 => readFrame (some (readNested levels))

/-- Read one value off the front of a buffer. -/
def read (bytes : Bytes) : Reading FrameFault Value := readNested maxDepth bytes

/-- A reading that takes at least `count` bytes whenever it gives a value. -/
def Takes (count : Nat) (bytes : Bytes) (reading : Reading FrameFault Value) : Prop :=
  ∀ value rest, reading = .value value rest → rest.length + count ≤ bytes.length

private theorem readText_takes (make : String → Value) (content rest : Bytes) :
    Takes 0 rest (readText make content rest) := by
  intro value behind found
  unfold readText at found
  split at found <;> simp_all

private theorem readInteger_takes (content rest : Bytes) : Takes 0 rest (readInteger content rest) := by
  intro value behind found
  unfold readInteger at found
  split at found <;> simp_all

private theorem readBulk_takes (content rest : Bytes) : Takes 0 rest (readBulk content rest) := by
  intro value behind found
  unfold readBulk at found
  split at found
  · simp at found
  · simp_all
  · split at found
    · rename_i split
      have parts := (Bytes.splitCount?_append split).1
      split at found
      · simp only [Reading.value.injEq] at found
        rw [parts, ← found.2]
        simp
        omega
      · simp at found
    · simp at found

private theorem readElements_takes {element : Bytes → Reading FrameFault Value}
    (takes : ∀ bytes, Takes 0 bytes (element bytes)) (count : Nat) (done : List Value)
    (bytes : Bytes) : Takes 0 bytes (readElements element count done bytes) := by
  induction count generalizing done bytes with
  | zero => intro value rest found; simp_all [readElements]
  | succ count ih =>
    intro value rest found
    rw [readElements] at found
    split at found
    · rename_i first behind read
      have shorter := takes bytes first behind read
      have last := ih _ behind value rest found
      omega
    · simp at found
    · simp at found

private theorem readFrame_takes {element? : Option (Bytes → Reading FrameFault Value)}
    (takes : ∀ element, element? = some element → ∀ bytes, Takes 0 bytes (element bytes))
    (bytes : Bytes) : Takes 3 bytes (readFrame element? bytes) := by
  intro value behind found
  unfold readFrame at found
  split at found
  · simp at found
  · simp at found
  · rename_i mark content rest split
    have parts := Bytes.splitLine?_append split
    have short : behind.length ≤ rest.length := by
      split at found
      · exact readText_takes _ content rest value behind found
      split at found
      · exact readText_takes _ content rest value behind found
      split at found
      · exact readInteger_takes content rest value behind found
      split at found
      · exact readBulk_takes content rest value behind found
      split at found
      · unfold readArray at found
        split at found
        · simp at found
        · simp_all
        · simp_all
        · split at found
          · simp at found
          · exact readElements_takes (takes _ rfl) _ _ rest value behind found
      · simp at found
    rw [parts]
    simp [Bytes.lineEnd]
    omega

private theorem readNested_takes (levels : Nat) (bytes : Bytes) :
    Takes 3 bytes (readNested levels bytes) := by
  induction levels generalizing bytes with
  | zero => exact readFrame_takes (by simp) bytes
  | succ levels ih =>
    refine readFrame_takes ?_ bytes
    intro element same bytes value rest found
    cases same
    have taken := ih bytes value rest found
    omega

/-- The smallest frame has three bytes. -/
theorem read_takes (bytes : Bytes) : Takes 3 bytes (read bytes) := readNested_takes _ bytes

/-- Read every complete value, with those before held newest first. -/
def readAllAfter (done : List Value) (bytes : Bytes) : Reading FrameFault (List Value) :=
  match found : read bytes with
  | .value value rest =>
    have := read_takes bytes value rest found
    readAllAfter (value :: done) rest
  | .incomplete => if done.isEmpty then .incomplete else .value done.reverse bytes
  | .malformed fault => if done.isEmpty then .malformed fault else .value done.reverse bytes
termination_by bytes.length

/-- Read the complete values at the front of a buffer, at least one. A fault
behind them is left in the buffer for the next reading. -/
def readAll (bytes : Bytes) : Reading FrameFault (List Value) := readAllAfter [] bytes

end Value

end RespKeyspace
