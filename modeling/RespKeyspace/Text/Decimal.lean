import RespKeyspace.Bytes

/-! Whole numbers as decimal text. A number has an optional single sign and one
or more ASCII digits, leading zeros allowed, and lies in the range of its word. -/

namespace RespKeyspace.Decimal

def digit? (byte : UInt8) : Option Nat :=
  if 0x30 ≤ byte ∧ byte ≤ 0x39 then some (byte.toNat - 0x30) else none

/-- Read digits behind a number already read, up to `limit`. -/
def digitsAfter (limit : Nat) (number : Nat) : Bytes → Option Nat
  | [] => some number
  | byte :: rest =>
    match digit? byte with
    | none => none
    | some digit =>
      let next := number * 10 + digit
      if next ≤ limit then digitsAfter limit next rest else none

/-- One or more digits that denote a number up to `limit`. -/
def digits? (limit : Nat) : Bytes → Option Nat
  | [] => none
  | bytes => digitsAfter limit 0 bytes

/-- A number up to `limit`, with an optional plus sign. -/
def unsigned? (limit : Nat) : Bytes → Option Nat
  | 0x2B :: digits => digits? limit digits
  | digits => digits? limit digits

def maxSigned : Nat := 0x7FFFFFFFFFFFFFFF

/-- A number of the signed 64-bit range, with an optional sign. -/
def signed? : Bytes → Option Int64
  | 0x2D :: digits => (digits? (maxSigned + 1) digits).map fun number => Int64.ofInt (-number)
  | digits => (unsigned? maxSigned digits).map fun number => Int64.ofNat number

/-- The shortest decimal text of a number. -/
def ofNat (number : Nat) : Bytes := (Nat.toDigits 10 number).map Char.toUInt8

/-- The decimal text of an integer, with a minus sign below zero. -/
def ofInt : Int → Bytes
  | .ofNat number => ofNat number
  | .negSucc number => 0x2D :: ofNat (number + 1)

theorem digit?_digitChar {digit : Nat} (small : digit < 10) :
    digit? (Nat.digitChar digit).toUInt8 = some digit := by
  revert digit; decide

theorem digitsAfter_append {limit number : Nat} (front back : Bytes) :
    digitsAfter limit number (front ++ back) =
      (digitsAfter limit number front).bind (digitsAfter limit · back) := by
  induction front generalizing number with
  | nil => rfl
  | cons byte rest ih =>
    simp only [List.cons_append, digitsAfter]
    cases digit? byte with
    | none => rfl
    | some digit =>
      by_cases within : number * 10 + digit ≤ limit
      · simp [within, ih]
      · simp [within]

theorem digitsAfter_ofNat {limit number : Nat} (within : number ≤ limit) :
    digitsAfter limit 0 (ofNat number) = some number := by
  induction number using Nat.strongRecOn with
  | ind number ih =>
    unfold ofNat
    by_cases small : number < 10
    · rw [Nat.toDigits_of_lt_base small]
      simp [digitsAfter, digit?_digitChar small, within]
    · rw [Nat.toDigits_of_base_le (by decide) (Nat.le_of_not_lt small), List.map_append,
        digitsAfter_append]
      have front := ih (number / 10) (by omega) (by omega)
      unfold ofNat at front
      rw [front]
      have last := digit?_digitChar (Nat.mod_lt number (by decide : 0 < 10))
      have whole : number / 10 * 10 + number % 10 = number := by omega
      simp [digitsAfter, last, whole, within]

theorem ofNat_ne_nil (number : Nat) : ofNat number ≠ [] := by
  simp [ofNat, Nat.toDigits_ne_nil]

theorem digits?_ofNat {limit number : Nat} (within : number ≤ limit) :
    digits? limit (ofNat number) = some number := by
  unfold digits?
  split
  · rename_i empty; exact (ofNat_ne_nil number empty).elim
  · exact digitsAfter_ofNat within

theorem unsigned?_of_digits? {limit number : Nat} {bytes : Bytes}
    (read : digits? limit bytes = some number) : unsigned? limit bytes = some number := by
  unfold unsigned?
  split
  · simp [digits?, digitsAfter, digit?] at read
  · exact read

theorem signed?_of_unsigned? {number : Nat} {bytes : Bytes}
    (read : unsigned? maxSigned bytes = some number) :
    signed? bytes = some (Int64.ofNat number) := by
  unfold signed?
  split
  · simp [unsigned?, digits?, digitsAfter, digit?] at read
  · rw [read]; rfl

theorem unsigned?_ofNat {limit number : Nat} (within : number ≤ limit) :
    unsigned? limit (ofNat number) = some number :=
  unsigned?_of_digits? (digits?_ofNat within)

/-- A signed number reads back from its text. -/
theorem signed?_ofInt (number : Int64) : signed? (ofInt number.toInt) = some number := by
  have low := number.le_toInt
  have high := number.toInt_lt
  have whole : Int64.ofInt number.toInt = number := Int64.ofInt_toInt number
  cases sign : number.toInt with
  | ofNat natural =>
    rw [sign] at high whole
    have within : natural ≤ maxSigned := by
      simp only [Int.ofNat_eq_natCast, maxSigned] at high ⊢
      omega
    rw [ofInt, signed?_of_unsigned? (unsigned?_ofNat within), ← whole]
    rfl
  | negSucc natural =>
    rw [sign] at low whole
    have within : natural + 1 ≤ maxSigned + 1 := by
      simp only [maxSigned]
      omega
    rw [ofInt, signed?, digits?_ofNat within, ← whole]
    rfl

end RespKeyspace.Decimal
