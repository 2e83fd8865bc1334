import RespKeyspace.Bytes

/-! The bytes of a text, character by character. A byte of a character outside ASCII is
outside ASCII itself, so what ASCII bytes say can be read off the characters. -/

namespace RespKeyspace.Bytes

theorem ofText_eq (text : String) : ofText text = text.toList.flatMap String.utf8EncodeChar := by
  unfold ofText
  rw [String.toUTF8_eq_toByteArray, ← String.utf8Encode_toList]
  exact List.toList_data_toByteArray

private theorem toNat_of_mem_utf8EncodeChar {char : Char} {byte : UInt8}
    (member : byte ∈ String.utf8EncodeChar char) :
    byte.toNat = char.toNat ∨ 0x80 ≤ byte.toNat := by
  have code : char.val.toNat = char.toNat := rfl
  unfold String.utf8EncodeChar at member
  dsimp only at member
  split at member
  · left
    simp only [List.mem_singleton] at member
    subst member
    simp
    omega
  right
  split at member
  · simp at member
    rcases member with rfl | rfl <;> simp <;> omega
  split at member
  · simp at member
    rcases member with rfl | rfl | rfl <;> simp <;> omega
  · simp at member
    rcases member with rfl | rfl | rfl | rfl <;> simp <;> omega

theorem carriageReturn_notMem_ofText {text : String} (absent : '\r' ∉ text.toList) :
    carriageReturn ∉ ofText text := by
  intro member
  rw [ofText_eq] at member
  obtain ⟨char, inside, found⟩ := List.mem_flatMap.mp member
  rcases toNat_of_mem_utf8EncodeChar found with same | large
  · have here : char = '\r' := Char.toNat_inj.mp same.symm
    exact absent (here ▸ inside)
  · simp [carriageReturn] at large

theorem length_ofText_le (text : String) : (ofText text).length ≤ 4 * text.length := by
  rw [ofText_eq, ← String.length_toList]
  induction text.toList with
  | nil => simp
  | cons char rest ih =>
    have one := char.utf8Size_le_four
    rw [List.flatMap_cons, List.length_append, String.length_utf8EncodeChar, List.length_cons]
    omega

theorem toNat_eq_of_mem_utf8EncodeChar {char : Char} {byte : UInt8} (ascii : byte.toNat < 0x80)
    (member : byte ∈ String.utf8EncodeChar char) : char.toNat = byte.toNat := by
  rcases toNat_of_mem_utf8EncodeChar member with same | large
  · exact same.symm
  · omega

theorem lineEnd_infix_append_iff {front : Bytes} (absent : carriageReturn ∉ front) (rest : Bytes) :
    lineEnd <:+: front ++ rest ↔ lineEnd <:+: rest := by
  induction front with
  | nil => rfl
  | cons first later ih =>
    obtain ⟨differ, still⟩ := List.ne_and_not_mem_of_not_mem_cons absent
    rw [List.cons_append, List.infix_cons_iff, ih still]
    constructor
    · rintro (start | inside)
      · exact absurd (List.cons_prefix_cons.mp start).1 differ
      · exact inside
    · exact .inr

private theorem lineFeed_prefix_iff (chars : List Char) :
    [lineFeed] <+: chars.flatMap String.utf8EncodeChar ↔ ['\n'] <+: chars := by
  cases chars with
  | nil => simp
  | cons char rest =>
    rw [List.flatMap_cons]
    constructor
    · intro start
      cases written : String.utf8EncodeChar char with
      | nil =>
        have some := char.utf8Size_pos
        rw [← String.length_utf8EncodeChar, written] at some
        cases some
      | cons first later =>
        rw [written, List.cons_append, List.cons_prefix_cons] at start
        have member : lineFeed ∈ String.utf8EncodeChar char := by
          rw [written, start.1]
          exact List.mem_cons_self
        have code := toNat_eq_of_mem_utf8EncodeChar (by decide) member
        have here : char = '\n' := Char.toNat_inj.mp code
        simp [here]
    · intro start
      obtain ⟨rfl, _⟩ := List.cons_prefix_cons.mp start
      exact List.prefix_append [lineFeed] _

/-- A text holds a line end in its bytes exactly if it does in its characters. -/
theorem lineEnd_infix_ofText_iff (text : String) :
    lineEnd <:+: ofText text ↔ ['\r', '\n'] <:+: text.toList := by
  rw [ofText_eq]
  induction text.toList with
  | nil => simp [lineEnd]
  | cons char rest ih =>
    rw [List.flatMap_cons, List.infix_cons_iff, ← ih]
    by_cases returns : char = '\r'
    · subst returns
      have one : String.utf8EncodeChar '\r' = [carriageReturn] := by decide
      rw [one, List.singleton_append, List.infix_cons_iff, lineEnd, List.cons_prefix_cons,
        List.cons_prefix_cons, lineFeed_prefix_iff]
      simp
    · have absent : carriageReturn ∉ String.utf8EncodeChar char := by
        intro member
        have code := toNat_eq_of_mem_utf8EncodeChar (by decide) member
        exact returns (Char.toNat_inj.mp code)
      rw [lineEnd_infix_append_iff absent]
      constructor
      · exact .inr
      · rintro (start | inside)
        · exact absurd (List.cons_prefix_cons.mp start).1.symm returns
        · exact inside

end RespKeyspace.Bytes
