import RespKeyspace.Proofs.Reader.RoundTrip
import RespKeyspace.Proofs.Reader.TextBytes

/-! The values that survive being written and read. Every part of such a value is
admitted where it stands, and a reader never gives any other value. -/

namespace RespKeyspace

namespace Value

/-- The parts of a value, each with the depth at which it stands. -/
inductive Occurs : Nat → Value → Value → Prop where
  | here {value} : Occurs 0 value value
  | inside {depth part element elements} (member : element ∈ elements)
      (deeper : Occurs depth part element) : Occurs (depth + 1) part (.array elements)

/-- What is admitted at a depth, if elements may lie `levels` deep: texts without a line
end, lengths within their limits, and elements above the deepest level alone. -/
def Admitted (levels depth : Nat) : Value → Prop
  | .simple text | .error text => ¬ ['\r', '\n'] <:+: text.toList
  | .bulk content => content.length ≤ maxBulkLength
  | .array elements => elements.length ≤ maxArrayLength ∧ (elements ≠ [] → depth < levels)
  | .integer _ | .null => True

/-- A value whose parts are all admitted where they stand. -/
def Admissible (value : Value) : Prop :=
  ∀ depth part, Occurs depth part value → Admitted maxDepth depth part

private theorem admitted_succ_iff {levels depth : Nat} {part : Value} :
    Admitted (levels + 1) (depth + 1) part ↔ Admitted levels depth part := by
  cases part <;> simp [Admitted]

theorem WellFormed.admitted {levels depth : Nat} {value part : Value}
    (formed : WellFormed levels value) (occurs : Occurs depth part value) :
    Admitted levels depth part := by
  induction formed generalizing depth part with
  | simple whole =>
    cases occurs with
    | here => exact (not_congr (Bytes.lineEnd_infix_ofText_iff _)).mp whole
  | error whole =>
    cases occurs with
    | here => exact (not_congr (Bytes.lineEnd_infix_ofText_iff _)).mp whole
  | bulk short =>
    cases occurs with
    | here => exact short
  | empty =>
    cases occurs with
    | here => exact ⟨Nat.zero_le maxArrayLength, fun some => absurd rfl some⟩
    | inside member deeper => cases member
  | array few each ih =>
    cases occurs with
    | here => exact ⟨few, fun _ => Nat.succ_pos _⟩
    | inside member deeper => exact admitted_succ_iff.mpr (ih _ member deeper)
  | integer | null =>
    cases occurs with
    | here => trivial

private theorem wellFormed_of_admitted {levels : Nat} {value : Value}
    (admitted : ∀ depth part, Occurs depth part value → Admitted levels depth part) :
    WellFormed levels value := by
  induction levels using Nat.strongRecOn generalizing value with
  | ind levels ih =>
    have whole := admitted 0 value .here
    cases value with
    | simple text => exact .simple ((not_congr (Bytes.lineEnd_infix_ofText_iff text)).mpr whole)
    | error text => exact .error ((not_congr (Bytes.lineEnd_infix_ofText_iff text)).mpr whole)
    | integer number => exact .integer
    | bulk content => exact .bulk whole
    | array elements =>
      cases levels with
      | zero =>
        cases elements with
        | nil => exact .empty
        | cons first rest => exact absurd (whole.2 (List.cons_ne_nil first rest)) (Nat.lt_irrefl 0)
      | succ lower =>
        refine .array whole.1 ?_
        intro element member
        apply ih lower (Nat.lt_succ_self lower)
        intro depth part deeper
        exact admitted_succ_iff.mp (admitted (depth + 1) part (.inside member deeper))
    | null => exact .null

/-- The values that a reader gives are the admissible ones. -/
theorem admissible_iff {value : Value} : value.Admissible ↔ value.WellFormed maxDepth :=
  ⟨wellFormed_of_admitted, fun formed _ _ => formed.admitted⟩

end Value

namespace Reading

variable {Fault Item : Type}

/-- What is read where some items lie before a buffer: they stand before those that the
buffer gives, and what the buffer lacks or breaks is told only if there are none. -/
def behind (earlier : List Item) (buffer : Bytes) :
    Reading Fault (List Item) → Reading Fault (List Item)
  | .value items rest => .value (earlier ++ items) rest
  | other => if earlier.isEmpty then other else .value earlier buffer

end Reading

namespace Value

private theorem batch_after (earlier : List Value) (bytes : Bytes) :
    ((decoded bytes).after earlier).batch = (readAll bytes).behind earlier bytes := by
  cases read : readAll bytes with
  | value values rest =>
    have held := decoded_of_readAll_value read
    rw [readAll_eq, held] at read
    cases values with
    | nil => cases fault : (decoded bytes).fault? <;> simp [fault, Decoded.batch] at read
    | cons first later =>
      rw [held]
      cases earlier <;> rfl
  | incomplete =>
    rw [decoded_of_readAll_incomplete read]
    cases earlier <;> simp [Decoded.after, Decoded.batch, Reading.behind]
  | malformed fault =>
    rw [decoded_of_readAll_malformed read]
    cases earlier <;> simp [Decoded.after, Decoded.batch, Reading.behind]

/-- A value is read back from its written form, whatever follows it, exactly if it is
admissible; no other value is ever read. So written values that follow one another are
read back in order, and behind them what the rest of the buffer holds. -/
theorem read_encode_iff_admissible :
    (∀ value rest, read (encode value ++ rest) = .value value rest ↔ value.Admissible) ∧
    (∀ buffer value rest, read buffer = .value value rest → value.Admissible) ∧
    ∀ values rest, (∀ value ∈ values, Admissible value) →
      readAll (values.flatMap encode ++ rest) = (readAll rest).behind values rest := by
  have sound : ∀ buffer value rest, read buffer = .value value rest → value.Admissible := by
    intro buffer value rest found
    exact admissible_iff.mpr (readNested_wellFormed found)
  refine ⟨?_, sound, ?_⟩
  · intro value rest
    constructor
    · exact sound _ value rest
    · intro admissible
      exact read_encode (admissible_iff.mp admissible) rest
  · intro values rest admissible
    have formed : ∀ value ∈ values, WellFormed maxDepth value := fun value member =>
      admissible_iff.mp (admissible value member)
    rw [readAll_eq, decoded_flatMap_encode formed rest]
    exact batch_after values rest

/-- A text that ends in half a line end, a bulk string that holds a whole one, and arrays
within arrays are read back before bytes that are no frame. -/
theorem nested_values_read_back :
    let value : Value := .array [.simple "a\r", .array [.integer (-9223372036854775808), .array []],
      .bulk Bytes.lineEnd, .null]
    value.Admissible ∧
      readAll ([value, .error "\n"].flatMap encode ++ Bytes.ofText "?\r\n") =
        .value [value, .error "\n"] (Bytes.ofText "?\r\n") := by
  intro value
  have first : value.Admissible := (read_encode_iff_admissible.1 value []).mp (by decide +kernel)
  have second : Admissible (.error "\n") := (read_encode_iff_admissible.1 _ []).mp (by decide +kernel)
  refine ⟨first, ?_⟩
  rw [read_encode_iff_admissible.2.2 [value, .error "\n"] (Bytes.ofText "?\r\n") (by simp [first, second])]
  decide +kernel

end Value

end RespKeyspace
