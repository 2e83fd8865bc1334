import Mathlib.Data.List.Induction
import RespKeyspace.Proofs.Reader.RoundTrip

/-! The texts that denote a number. A sign and leading zeros are accepted, so there are
many; the one that is printed is the shortest, and the only one of its length. -/

namespace RespKeyspace

namespace Decimal

variable {limit number : Nat} {bytes : Bytes} {byte : UInt8}

private theorem digit?_eq_some {digit : Nat} (read : digit? byte = some digit) :
    digit < 10 ∧ (Nat.digitChar digit).toUInt8 = byte := by
  unfold digit? at read
  split at read
  · rename_i range
    obtain ⟨low, high⟩ := range
    have lower : 0x30 ≤ byte.toNat := UInt8.le_iff_toNat_le.mp low
    have upper : byte.toNat ≤ 0x39 := UInt8.le_iff_toNat_le.mp high
    obtain rfl := Option.some.inj read
    have small : byte.toNat - 0x30 < 10 := by omega
    have char : ∀ digit < 10, (Nat.digitChar digit).toUInt8 = UInt8.ofNat (digit + 0x30) := by decide
    refine ⟨small, ?_⟩
    rw [char _ small, Nat.sub_add_cancel lower, UInt8.ofNat_toNat]
  · cases read

theorem digitsAfter_concat {front : Bytes} (read : digitsAfter limit 0 (front ++ [byte]) = some number) :
    ∃ earlier digit, digitsAfter limit 0 front = some earlier ∧ digit < 10 ∧
      (Nat.digitChar digit).toUInt8 = byte ∧ number = earlier * 10 + digit := by
  rw [digitsAfter_append] at read
  obtain ⟨earlier, before, last⟩ := Option.bind_eq_some_iff.mp read
  rw [digitsAfter] at last
  split at last
  · cases last
  · rename_i digit found
    obtain ⟨small, same⟩ := digit?_eq_some found
    dsimp only at last
    split at last
    · refine ⟨earlier, digit, before, small, same, ?_⟩
      simpa [digitsAfter] using last.symm
    · cases last

private theorem ofNat_of_lt {digit : Nat} (small : digit < 10) :
    ofNat digit = [(Nat.digitChar digit).toUInt8] := by
  rw [ofNat, Nat.toDigits_of_lt_base small]
  rfl

private theorem ofNat_concat {earlier digit : Nat} (some : 0 < earlier) (small : digit < 10) :
    ofNat (earlier * 10 + digit) = ofNat earlier ++ [(Nat.digitChar digit).toUInt8] := by
  have front : (earlier * 10 + digit) / 10 = earlier := by omega
  have last : (earlier * 10 + digit) % 10 = digit := by omega
  rw [ofNat, Nat.toDigits_of_base_le (by decide) (by omega), front, last, List.map_append]
  rfl

private theorem ofNat_shortest (filled : bytes ≠ []) (read : digitsAfter limit 0 bytes = some number) :
    (ofNat number).length ≤ bytes.length ∧
      ((ofNat number).length = bytes.length → bytes = ofNat number) := by
  induction bytes using List.reverseRecOn generalizing number with
  | nil => exact absurd rfl filled
  | append_singleton front byte ih =>
    obtain ⟨earlier, digit, before, small, rfl, rfl⟩ := digitsAfter_concat read
    cases front with
    | nil =>
      obtain rfl : 0 = earlier := Option.some.inj before
      simp [ofNat_of_lt small]
    | cons next later =>
      obtain ⟨short, same⟩ := ih (List.cons_ne_nil next later) before
      rcases Nat.eq_zero_or_pos earlier with rfl | some
      · simp [ofNat_of_lt small]
      · rw [ofNat_concat some small]
        simp only [List.length_append, List.length_singleton]
        refine ⟨by omega, ?_⟩
        intro equal
        rw [same (by omega)]

private theorem digitsAfter_le (within : number ≤ limit) {result : Nat}
    (read : digitsAfter limit number bytes = some result) : result ≤ limit := by
  induction bytes generalizing number with
  | nil => exact Option.some.inj read ▸ within
  | cons first rest ih =>
    rw [digitsAfter] at read
    split at read
    · cases read
    · dsimp only at read
      split at read
      · rename_i still
        exact ih still read
      · cases read

theorem digits?_eq_some (read : digits? limit bytes = some number) :
    bytes ≠ [] ∧ digitsAfter limit 0 bytes = some number ∧ number ≤ limit := by
  cases bytes with
  | nil => cases read
  | cons first rest =>
    exact ⟨List.cons_ne_nil first rest, read, digitsAfter_le (Nat.zero_le limit) read⟩

theorem unsigned?_cases (read : unsigned? limit bytes = some number) :
    ∃ digits, (bytes = digits ∨ bytes = 0x2B :: digits) ∧ digits? limit digits = some number := by
  unfold unsigned? at read
  split at read
  · exact ⟨_, .inr rfl, read⟩
  · exact ⟨_, .inl rfl, read⟩

theorem signed?_cases {number : Int64} (read : signed? bytes = some number) :
    (∃ digits magnitude, bytes = 0x2D :: digits ∧
      digits? (maxSigned + 1) digits = some magnitude ∧ number.toInt = -magnitude) ∨
    ∃ digits magnitude, (bytes = digits ∨ bytes = 0x2B :: digits) ∧
      digits? maxSigned digits = some magnitude ∧ number.toInt = magnitude := by
  unfold signed? at read
  split at read
  · rename_i digits
    obtain ⟨whole, denotes, rfl⟩ := Option.map_eq_some_iff.mp read
    obtain ⟨magnitude, found, same⟩ := Option.bind_eq_some_iff.mp denotes
    obtain rfl : (magnitude : Int) = whole := Option.some.inj same
    have within := (digits?_eq_some found).2.2
    refine .inl ⟨digits, magnitude, rfl, found, ?_⟩
    unfold maxSigned at within
    exact Int64.toInt_ofInt_of_le (by omega) (by omega)
  · obtain ⟨magnitude, unsigned, rfl⟩ := Option.map_eq_some_iff.mp read
    obtain ⟨digits, shape, found⟩ := unsigned?_cases unsigned
    have within := (digits?_eq_some found).2.2
    refine .inr ⟨digits, magnitude, shape, found, ?_⟩
    unfold maxSigned at within
    exact Int64.toInt_ofNat_of_lt (by omega)

/-- No text that denotes a number is shorter than the one it is printed in, and one as long
is the same. -/
theorem ofInt_shortest {number : Int64} (read : signed? bytes = some number) :
    (ofInt number.toInt).length ≤ bytes.length ∧
      ((ofInt number.toInt).length = bytes.length → bytes = ofInt number.toInt) := by
  rcases signed?_cases read with
    ⟨digits, magnitude, rfl, found, same⟩ | ⟨digits, magnitude, shape, found, same⟩
  · obtain ⟨filled, denotes, _⟩ := digits?_eq_some found
    obtain ⟨short, unique⟩ := ofNat_shortest filled denotes
    rw [same]
    cases magnitude with
    | zero =>
      change (ofNat 0).length ≤ _ ∧ ((ofNat 0).length = _ → _)
      rw [List.length_cons]
      exact ⟨by omega, fun absurd => by omega⟩
    | succ less =>
      change (0x2D :: ofNat (less + 1)).length ≤ _ ∧ ((0x2D :: ofNat (less + 1)).length = _ → _)
      simp only [List.length_cons]
      refine ⟨by omega, ?_⟩
      intro equal
      rw [unique (by omega)]
      rfl
  · obtain ⟨filled, denotes, _⟩ := digits?_eq_some found
    obtain ⟨short, unique⟩ := ofNat_shortest filled denotes
    rw [same]
    change (ofNat magnitude).length ≤ _ ∧ ((ofNat magnitude).length = _ → bytes = ofNat magnitude)
    rcases shape with rfl | rfl
    · exact ⟨short, unique⟩
    · rw [List.length_cons]
      exact ⟨by omega, fun absurd => by omega⟩

private theorem carriageReturn_notMem_of_digits? (read : digits? limit bytes = some number) :
    Bytes.carriageReturn ∉ bytes := by
  obtain ⟨_, denotes, _⟩ := digits?_eq_some read
  intro member
  have digit := isDigit_of_digitsAfter denotes _ member
  simp [digit?, Bytes.carriageReturn] at digit

private theorem carriageReturn_notMem_of_sign {digits : Bytes}
    (shape : bytes = digits ∨ bytes = 0x2B :: digits)
    (absent : Bytes.carriageReturn ∉ digits) : Bytes.carriageReturn ∉ bytes := by
  rcases shape with rfl | rfl
  · exact absent
  · simpa [Bytes.carriageReturn] using absent

theorem carriageReturn_notMem_of_unsigned? (read : unsigned? limit bytes = some number) :
    Bytes.carriageReturn ∉ bytes := by
  obtain ⟨digits, shape, found⟩ := unsigned?_cases read
  exact carriageReturn_notMem_of_sign shape (carriageReturn_notMem_of_digits? found)

theorem carriageReturn_notMem_of_signed? {number : Int64} (read : signed? bytes = some number) :
    Bytes.carriageReturn ∉ bytes := by
  rcases signed?_cases read with
    ⟨digits, magnitude, rfl, found, _⟩ | ⟨digits, magnitude, shape, found, _⟩
  · simpa [Bytes.carriageReturn] using carriageReturn_notMem_of_digits? found
  · exact carriageReturn_notMem_of_sign shape (carriageReturn_notMem_of_digits? found)

end Decimal
end RespKeyspace
