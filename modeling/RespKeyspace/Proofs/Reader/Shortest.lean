import Mathlib.Data.List.Basic
import RespKeyspace.Proofs.Reader.Domain
import RespKeyspace.Proofs.Reader.Spelling

/-! Of the forms that a reader takes for a value, the one that is written is the shortest,
and unless a null occurs in the value no other form is as short. -/

namespace RespKeyspace.Value

theorem length_line (mark : UInt8) (content : Bytes) : (line mark content).length = content.length + 3 := by
  simp [line, Bytes.lineEnd]

private theorem Denotes.shortest {digits : Bytes} {count : Nat} (denotes : Denotes digits count) :
    (Decimal.ofNat count).length ≤ digits.length ∧
      ((Decimal.ofNat count).length = digits.length → digits = Decimal.ofNat count) := by
  obtain ⟨number, read, same⟩ := denotes
  have shortest := Decimal.ofInt_shortest read
  rw [same] at shortest
  exact shortest

section

variable {parts : List (Value × Bytes)}

theorem length_flatMap_encode_le (each : ∀ part ∈ parts, part.1.encode.length ≤ part.2.length) :
    ((parts.map Prod.fst).flatMap encode).length ≤ (parts.flatMap Prod.snd).length := by
  induction parts with
  | nil => exact Nat.le_refl 0
  | cons first rest ih =>
    have head := each first (by simp)
    have tail := ih fun part member => each part (by simp [member])
    simp only [List.map_cons, List.flatMap_cons, List.length_append]
    omega

theorem length_flatMap_encode_eq_iff (each : ∀ part ∈ parts, part.1.encode.length ≤ part.2.length) :
    ((parts.map Prod.fst).flatMap encode).length = (parts.flatMap Prod.snd).length ↔
      ∀ part ∈ parts, part.1.encode.length = part.2.length := by
  induction parts with
  | nil => simp
  | cons first rest ih =>
    have later : ∀ part ∈ rest, part.1.encode.length ≤ part.2.length := fun part member =>
      each part (by simp [member])
    have head := each first (by simp)
    have tail := length_flatMap_encode_le later
    rw [List.forall_mem_cons, ← ih later]
    simp only [List.map_cons, List.flatMap_cons, List.length_append]
    omega

end

variable {levels : Nat} {value : Value} {form : Bytes}

theorem Spelling.length_encode_le (spelled : Spelling levels value form) :
    value.encode.length ≤ form.length := by
  induction spelled with
  | simple whole => simp
  | error whole => simp
  | integer denotes =>
    have short := (Decimal.ofInt_shortest denotes).1
    simp only [encode_integer, length_line]
    omega
  | bulk denotes short =>
    have short := denotes.shortest.1
    simp only [encode_bulk, List.length_append, length_line]
    omega
  | empty denotes =>
    have short := denotes.shortest.1
    simp only [encode_array, List.length_nil, List.length_append, length_line, List.flatMap_nil]
    omega
  | @array lower digits parts denotes few each ih =>
    have short := denotes.shortest.1
    have inside := length_flatMap_encode_le ih
    simp only [encode_array, List.length_append, length_line, List.length_map]
    omega
  | null header denotes =>
    have short := (Decimal.ofInt_shortest denotes).1
    rw [encode_null, length_line, length_line]
    exact Nat.add_le_add_right short 3

theorem Spelling.eq_encode (spelled : Spelling levels value form)
    (filled : ∀ depth, ¬ Occurs depth .null value) (same : value.encode.length = form.length) :
    form = value.encode := by
  induction spelled with
  | simple whole => simp
  | error whole => simp
  | integer denotes =>
    simp only [encode_integer, length_line, Nat.add_right_cancel_iff] at same
    rw [encode_integer, (Decimal.ofInt_shortest denotes).2 same]
  | bulk denotes short =>
    simp only [encode_bulk, List.length_append, length_line, Nat.add_right_cancel_iff] at same
    rw [encode_bulk, denotes.shortest.2 same]
  | empty denotes =>
    simp only [encode_array, List.length_nil, List.length_append, length_line, List.flatMap_nil,
      Nat.add_zero, Nat.add_right_cancel_iff] at same
    rw [encode_array, List.length_nil, List.flatMap_nil, List.append_nil, denotes.shortest.2 same]
  | @array lower digits parts denotes few each ih =>
    have within : ∀ part ∈ parts, part.1.encode.length ≤ part.2.length := fun part member =>
      (each part member).length_encode_le
    have short := denotes.shortest.1
    have inside := length_flatMap_encode_le within
    simp only [encode_array, List.length_append, length_line, List.length_map] at same
    have header : digits = Decimal.ofNat parts.length := denotes.shortest.2 (by omega)
    have lengths := (length_flatMap_encode_eq_iff within).mp (by omega)
    have forms : parts.flatMap Prod.snd = parts.flatMap fun part => part.1.encode := by
      apply List.flatMap_congr
      intro part member
      apply ih part member
      · intro depth occurs
        exact filled (depth + 1) (.inside (List.mem_map.mpr ⟨part, member, rfl⟩) occurs)
      · exact lengths part member
    rw [encode_array, List.length_map, List.flatMap_map, ← header, forms]
  | null header denotes => exact absurd Occurs.here (filled 0)

theorem not_occurs_null_ofParts (parts : List Bytes) (depth : Nat) :
    ¬ Occurs depth .null (ofParts parts) := by
  intro occurs
  cases occurs with
  | inside member deeper =>
    obtain ⟨part, _, rfl⟩ := List.mem_map.mp member
    cases deeper

/-- The complete values at the front of a buffer, each with the bytes it occupies. -/
def framed (bytes : Bytes) : List (Value × Bytes) :=
  match found : read bytes with
  | .value value rest =>
    have := read_takes bytes value rest found
    (value, bytes.take (bytes.length - rest.length)) :: framed rest
  | _ => []
termination_by bytes.length

private theorem framed_of_value {rest : Bytes} (found : read (form ++ rest) = .value value rest) :
    framed (form ++ rest) = (value, form) :: framed rest := by
  rw [framed]
  split
  · rename_i other behind same
    rw [found] at same
    cases same
    simp
  · simp_all

private theorem framed_of_no_value {bytes : Bytes}
    (none : ∀ value rest, read bytes ≠ .value value rest) :
    framed bytes = [] := by
  rw [framed]
  split
  · rename_i value rest found
    exact absurd found (none value rest)
  · rfl

/-- The bytes occupied are those before what is left, and each value occupies a form of it. -/
theorem framed_spec (bytes : Bytes) :
    (framed bytes).map Prod.fst = (decoded bytes).values ∧
      (framed bytes).flatMap Prod.snd ++ (decoded bytes).rest = bytes ∧
      ∀ frame ∈ framed bytes, Spelling maxDepth frame.1 frame.2 := by
  induction bytes using decoded_induction with
  | taken bytes value rest found ih =>
    obtain ⟨form, spelled, rfl⟩ := read_eq_value_iff.mp found
    obtain ⟨values, whole, forms⟩ := ih
    rw [decoded_of_value found, framed_of_value found]
    refine ⟨by simp [values], by simp [whole], ?_⟩
    intro frame member
    rcases List.mem_cons.mp member with rfl | later
    · exact spelled
    · exact forms frame later
  | incomplete bytes found => simp [decoded_of_incomplete found, framed_of_no_value, found]
  | malformed bytes fault found => simp [decoded_of_malformed found, framed_of_no_value, found]

end RespKeyspace.Value
