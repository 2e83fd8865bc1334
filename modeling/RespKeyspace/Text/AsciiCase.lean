import RespKeyspace.Bytes

/-! Comparison of keywords that ignores the case of the letters `a` to `z` and of
nothing else. -/

namespace RespKeyspace.AsciiCase

/-- The upper-case form of a byte that is an ASCII letter; any other byte stays. -/
def upper (byte : UInt8) : UInt8 := if 0x61 ≤ byte ∧ byte ≤ 0x7A then byte - 0x20 else byte

def same (left right : Bytes) : Bool := left.map upper == right.map upper

theorem upper_of_outside {byte : UInt8}
    (outside : byte.toNat < 0x61 ∨ 0x7A < byte.toNat) : upper byte = byte := by
  refine if_neg fun within => ?_
  have low : 0x61 ≤ byte.toNat := UInt8.le_iff_toNat_le.mp within.1
  have high : byte.toNat ≤ 0x7A := UInt8.le_iff_toNat_le.mp within.2
  omega

end RespKeyspace.AsciiCase
