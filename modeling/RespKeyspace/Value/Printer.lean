import RespKeyspace.Value
import RespKeyspace.Text.Decimal

/-! The written form of a value. Every value has one, also those a reader would
refuse: the limits bind the reader only. -/

namespace RespKeyspace.Value

/-- A line that opens with `mark`. -/
def line (mark : UInt8) (content : Bytes) : Bytes := mark :: content ++ Bytes.lineEnd

def simpleMark : UInt8 := 0x2B
def errorMark : UInt8 := 0x2D
def integerMark : UInt8 := 0x3A
def bulkMark : UInt8 := 0x24
def arrayMark : UInt8 := 0x2A

mutual

/-- Write a value behind what is written already, held newest byte first. -/
def printAfter (written : Bytes) : Value → Bytes
  | .simple text => (line simpleMark (Bytes.ofText text)).reverse ++ written
  | .error text => (line errorMark (Bytes.ofText text)).reverse ++ written
  | .integer number => (line integerMark (Decimal.ofInt number.toInt)).reverse ++ written
  | .bulk content =>
    (content ++ Bytes.lineEnd).reverse ++
      ((line bulkMark (Decimal.ofNat content.length)).reverse ++ written)
  | .array elements =>
    printAllAfter ((line arrayMark (Decimal.ofNat elements.length)).reverse ++ written) elements
  | .null => (line bulkMark (Decimal.ofInt (-1))).reverse ++ written

def printAllAfter (written : Bytes) : List Value → Bytes
  | [] => written
  | value :: rest => printAllAfter (printAfter written value) rest

end

def encode (value : Value) : Bytes := (printAfter [] value).reverse

mutual

theorem printAfter_eq : (value : Value) → (written : Bytes) →
    printAfter written value = printAfter [] value ++ written
  | .simple _, _ | .error _, _ | .integer _, _ | .bulk _, _ | .null, _ => by simp [printAfter]
  | .array elements, written => by
    rw [printAfter, printAfter, printAllAfter_eq elements (_ ++ written),
      printAllAfter_eq elements (_ ++ [])]
    simp

theorem printAllAfter_eq : (values : List Value) → (written : Bytes) →
    printAllAfter written values = (values.flatMap encode).reverse ++ written
  | [], _ => by simp [printAllAfter]
  | value :: rest, written => by
    rw [printAllAfter, printAllAfter_eq rest, printAfter_eq value written]
    simp [encode]

end

@[simp] theorem encode_simple (text : String) :
    encode (.simple text) = line simpleMark (Bytes.ofText text) := by simp [encode, printAfter]

@[simp] theorem encode_error (text : String) :
    encode (.error text) = line errorMark (Bytes.ofText text) := by simp [encode, printAfter]

@[simp] theorem encode_integer (number : Int64) :
    encode (.integer number) = line integerMark (Decimal.ofInt number.toInt) := by
  simp [encode, printAfter]

@[simp] theorem encode_bulk (content : Bytes) :
    encode (.bulk content) =
      line bulkMark (Decimal.ofNat content.length) ++ content ++ Bytes.lineEnd := by
  simp [encode, printAfter]

@[simp] theorem encode_array (elements : List Value) :
    encode (.array elements) =
      line arrayMark (Decimal.ofNat elements.length) ++ elements.flatMap encode := by
  simp [encode, printAfter, printAllAfter_eq]

@[simp] theorem encode_null : encode .null = line bulkMark (Decimal.ofInt (-1)) := by
  simp [encode, printAfter]

end RespKeyspace.Value
