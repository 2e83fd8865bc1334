import RespKeyspace.Proofs.Reader.Decoded

/-! The values a reader gives, and that these are read back from their written form,
whatever follows it. -/

namespace RespKeyspace

namespace Decimal

theorem isDigit_of_digitsAfter {limit number result : Nat} {bytes : Bytes}
    (read : digitsAfter limit number bytes = some result) :
    ∀ byte ∈ bytes, (digit? byte).isSome = true := by
  induction bytes generalizing number with
  | nil => simp
  | cons first rest ih =>
    intro byte member
    rw [digitsAfter] at read
    split at read
    · cases read
    · rename_i digit found
      dsimp only at read
      split at read
      · rcases List.mem_cons.mp member with rfl | later
        · simp [found]
        · exact ih read byte later
      · cases read

private theorem isDigit_ofNat {number : Nat} : ∀ byte ∈ ofNat number, (digit? byte).isSome = true :=
  isDigit_of_digitsAfter (digitsAfter_ofNat (Nat.le_refl number))

theorem carriageReturn_notMem_ofNat (number : Nat) : Bytes.carriageReturn ∉ ofNat number := by
  intro member
  have digit := isDigit_ofNat _ member
  simp [digit?, Bytes.carriageReturn] at digit

private theorem carriageReturn_notMem_ofInt (number : Int) : Bytes.carriageReturn ∉ ofInt number := by
  cases number with
  | ofNat number => exact carriageReturn_notMem_ofNat number
  | negSucc number => simpa [ofInt, Bytes.carriageReturn] using carriageReturn_notMem_ofNat (number + 1)

end Decimal

namespace Bytes

theorem not_lineEnd_infix_of_notMem {line : Bytes} (absent : carriageReturn ∉ line) :
    ¬ lineEnd <:+: line := fun inside => absent (inside.subset (by simp [lineEnd]))

private theorem lineEnd_infix_cons_iff {mark : UInt8} (differ : mark ≠ carriageReturn)
    (content : Bytes) :
    lineEnd <:+: mark :: content ↔ lineEnd <:+: content := by
  cases content with
  | nil => simpa [lineEnd] using not_lineEnd_infix_singleton mark
  | cons second rest => simp [lineEnd_infix_cons_cons, differ]

theorem splitLine?_line {mark : UInt8} {content : Bytes} (differ : mark ≠ carriageReturn)
    (whole : ¬ lineEnd <:+: content) (rest : Bytes) :
    splitLine? (Value.line mark content ++ rest) = some (mark :: content, rest) :=
  splitLine?_eq_some_iff.mpr ⟨rfl, (not_congr (lineEnd_infix_cons_iff differ content)).mpr whole⟩

end Bytes

namespace Value

/-- Values that a reader gives where elements may lie `levels` deep: lines are not
broken, and every length keeps its limit. -/
inductive WellFormed : Nat → Value → Prop where
  | simple {levels text} (whole : ¬ Bytes.lineEnd <:+: Bytes.ofText text) :
      WellFormed levels (.simple text)
  | error {levels text} (whole : ¬ Bytes.lineEnd <:+: Bytes.ofText text) :
      WellFormed levels (.error text)
  | integer {levels number} : WellFormed levels (.integer number)
  | bulk {levels content} (short : content.length ≤ maxBulkLength) :
      WellFormed levels (.bulk content)
  | empty {levels} : WellFormed levels (.array [])
  | array {levels elements} (few : elements.length ≤ maxArrayLength)
      (each : ∀ element ∈ elements, WellFormed levels element) :
      WellFormed (levels + 1) (.array elements)
  | null {levels} : WellFormed levels .null

private theorem announced_ofNat {limit count : Nat} (small : limit ≤ Decimal.maxSigned)
    (within : count ≤ limit) : announced limit (Decimal.ofNat count) = .length count := by
  have read := Decimal.signed?_of_unsigned? (Decimal.unsigned?_ofNat (Nat.le_trans within small))
  have same : (Int64.ofNat count).toInt = count := by
    unfold Decimal.maxSigned at small
    exact Int64.toInt_ofNat_of_lt (by omega)
  have positive : Int64.ofNat count ≠ -1 := by
    intro absurd
    have negative := congrArg Int64.toInt absurd
    rw [same] at negative
    simp at negative
  simp [announced, read, positive, same, within]

private theorem announced_length {limit count : Nat} {content : Bytes}
    (found : announced limit content = .length count) : count ≤ limit := by
  unfold announced at found
  split at found
  · cases found
  · split at found
    · cases found
    · split at found
      · rename_i bounds
        cases found
        omega
      · cases found

theorem readText_encode {text : String} (make : String → Value) (rest : Bytes) :
    readText make (Bytes.ofText text) rest = .value (make text) rest := by
  simp [readText, Utf8.decode?_eq_some_iff.mpr rfl]

theorem readContent_encode (content rest : Bytes) :
    readContent content.length (content ++ Bytes.lineEnd ++ rest) = .value (.bulk content) rest := by
  have split : Bytes.splitCount? content.length (content ++ Bytes.lineEnd ++ rest) =
      some (content, Bytes.carriageReturn :: Bytes.lineFeed :: rest) :=
    Bytes.splitCount?_eq_some_iff.mpr ⟨by simp [Bytes.lineEnd], rfl⟩
  rw [readContent_eq split]
  simp

theorem readElements_encode {element : Bytes → Reading FrameFault Value} {values : List Value}
    (each : ∀ value ∈ values, ∀ rest, element (value.encode ++ rest) = .value value rest)
    (done : List Value) (rest : Bytes) :
    readElements element values.length done (values.flatMap encode ++ rest) =
      .value (.array (done.reverse ++ values)) rest := by
  induction values generalizing done with
  | nil => simp [readElements]
  | cons value later ih =>
    have first := each value (by simp) (later.flatMap encode ++ rest)
    have behind := ih (fun value member => each value (by simp [member])) (value :: done)
    rw [List.length_cons, List.flatMap_cons, List.append_assoc, readElements, first]
    simpa using behind

def elementReader? : Nat → Option (Bytes → Reading FrameFault Value)
  | 0 => none
  | levels + 1 => some (readNested levels)

theorem readNested_eq (levels : Nat) : readNested levels = readFrame (elementReader? levels) := by
  cases levels <;> rfl

theorem readNested_line {mark : UInt8} {content : Bytes} (levels : Nat)
    (differ : mark ≠ Bytes.carriageReturn) (whole : ¬ Bytes.lineEnd <:+: content) (rest : Bytes) :
    readNested levels (line mark content ++ rest) =
      readBehind (elementReader? levels) (mark :: content) rest := by
  rw [readNested_eq, readFrame_of_splitLine? _ (Bytes.splitLine?_line differ whole rest)]

/-- A well-formed value is read back from its written form, whatever follows it. -/
theorem readNested_encode {levels : Nat} {value : Value} (formed : WellFormed levels value)
    (rest : Bytes) : readNested levels (value.encode ++ rest) = .value value rest := by
  induction formed generalizing rest with
  | simple whole =>
    rw [encode_simple, readNested_line _ (by decide) whole]
    exact readText_encode .simple rest
  | error whole =>
    rw [encode_error, readNested_line _ (by decide) whole]
    exact readText_encode .error rest
  | @integer levels number =>
    have whole := Bytes.not_lineEnd_infix_of_notMem (Decimal.carriageReturn_notMem_ofInt number.toInt)
    rw [encode_integer, readNested_line _ (by decide) whole]
    simp [readBehind, readInteger, Decimal.signed?_ofInt, errorMark, simpleMark, integerMark]
  | @bulk levels content short =>
    have whole := Bytes.not_lineEnd_infix_of_notMem
      (Decimal.carriageReturn_notMem_ofNat content.length)
    have length := announced_ofNat (by decide : maxBulkLength ≤ Decimal.maxSigned) short
    rw [encode_bulk, List.append_assoc, List.append_assoc, readNested_line _ (by decide) whole]
    change readBulk _ _ = _
    simp only [readBulk, length]
    exact (List.append_assoc _ _ _) ▸ readContent_encode content rest
  | empty =>
    have whole := Bytes.not_lineEnd_infix_of_notMem (Decimal.carriageReturn_notMem_ofNat 0)
    rw [encode_array, List.append_assoc, List.length_nil, readNested_line _ (by decide) whole]
    rfl
  | @array levels elements few each ih =>
    have whole := Bytes.not_lineEnd_infix_of_notMem
      (Decimal.carriageReturn_notMem_ofNat elements.length)
    have length := announced_ofNat (by decide : maxArrayLength ≤ Decimal.maxSigned) few
    rw [encode_array, List.append_assoc, readNested_line _ (by decide) whole]
    change readArray (some (readNested levels)) _ _ = _
    unfold readArray
    rw [length]
    cases elements with
    | nil => rfl
    | cons first later => exact readElements_encode (fun value member => ih value member) [] rest
  | null =>
    have whole := Bytes.not_lineEnd_infix_of_notMem (Decimal.carriageReturn_notMem_ofInt (-1))
    rw [encode_null, readNested_line _ (by decide) whole]
    rfl

theorem read_encode {value : Value} (formed : WellFormed maxDepth value) (rest : Bytes) :
    read (value.encode ++ rest) = .value value rest := readNested_encode formed rest

/-- Written values that follow one another are all read back. -/
theorem decoded_flatMap_encode {values : List Value}
    (formed : ∀ value ∈ values, WellFormed maxDepth value) (rest : Bytes) :
    decoded (values.flatMap encode ++ rest) = (decoded rest).after values := by
  induction values with
  | nil => rfl
  | cons value later ih =>
    have first := read_encode (formed value (by simp)) (later.flatMap encode ++ rest)
    have behind := ih fun value member => formed value (by simp [member])
    rw [List.flatMap_cons, List.append_assoc, decoded_of_value first, behind]
    simp

theorem decoded_encoded {values : List Value}
    (formed : ∀ value ∈ values, WellFormed maxDepth value) :
    decoded (values.flatMap encode) = ⟨values, none, []⟩ := by
  have all := decoded_flatMap_encode formed []
  rw [List.append_nil, decoded_nil] at all
  simpa [Decoded.after] using all

theorem decoded_of_append {values : List Value} {bytes more : Bytes}
    (formed : ∀ value ∈ values, WellFormed maxDepth value)
    (written : bytes ++ more = values.flatMap encode) :
    (decoded bytes).fault? = none ∧ (decoded bytes).values <+: values := by
  have whole := decoded_encoded formed
  rw [← written] at whole
  refine ⟨?_, ?_⟩
  · cases found : (decoded bytes).fault? with
    | none => rfl
    | some fault =>
      have still := congrArg Decoded.fault? ((decoded_append_of_fault found more).symm.trans whole)
      cases still
  · have front := congrArg Decoded.values ((decoded_append bytes more).symm.trans whole)
    exact ⟨_, front⟩

private theorem readElements_forall {element : Bytes → Reading FrameFault Value}
    {property : Value → Prop}
    (each : ∀ bytes value rest, element bytes = .value value rest → property value)
    {count : Nat} {done : List Value} {bytes rest : Bytes} {value : Value}
    (before : ∀ value ∈ done, property value)
    (found : readElements element count done bytes = .value value rest) :
    ∃ elements, value = .array elements ∧ elements.length = done.length + count ∧
      ∀ element ∈ elements, property element := by
  induction count generalizing done bytes with
  | zero =>
    cases found
    exact ⟨done.reverse, rfl, by simp, by simpa using before⟩
  | succ count ih =>
    rw [readElements] at found
    split at found
    · rename_i first behind read
      have still : ∀ value ∈ first :: done, property value := by
        intro value member
        rcases List.mem_cons.mp member with rfl | earlier
        · exact each _ _ _ read
        · exact before value earlier
      obtain ⟨elements, same, length, all⟩ := ih still found
      exact ⟨elements, same, by simp at length; omega, all⟩
    · cases found
    · cases found

theorem readText_wellFormed {make : String → Value} {levels : Nat} {content rest behind : Bytes}
    {value : Value} (whole : ¬ Bytes.lineEnd <:+: content)
    (formed : ∀ text, ¬ Bytes.lineEnd <:+: Bytes.ofText text → WellFormed levels (make text))
    (found : readText make content rest = .value value behind) : WellFormed levels value := by
  unfold readText at found
  split at found
  · rename_i text read
    cases found
    exact formed text (Utf8.decode?_eq_some_iff.mp read ▸ whole)
  · cases found

theorem readBulk_wellFormed {levels : Nat} {content rest behind : Bytes} {value : Value}
    (found : readBulk content rest = .value value behind) : WellFormed levels value := by
  unfold readBulk at found
  split at found
  · cases found
  · cases found
    exact .null
  · rename_i count announcement
    split at found
    · rename_i split
      split at found
      · cases found
        have length := (Bytes.splitCount?_append split).2
        exact .bulk (length ▸ announced_length announcement)
      · cases found
    · cases found

theorem readArray_wellFormed {levels : Nat} {content rest behind : Bytes} {value : Value}
    (each : ∀ below, levels = below + 1 →
      ∀ bytes value rest, readNested below bytes = .value value rest → WellFormed below value)
    (found : readArray (elementReader? levels) content rest = .value value behind) :
    WellFormed levels value := by
  unfold readArray at found
  split at found
  · cases found
  · cases found
    exact .null
  · cases found
    exact .empty
  · rename_i count _ announcement
    cases levels with
    | zero => cases found
    | succ below =>
      obtain ⟨elements, rfl, length, all⟩ := readElements_forall (each below rfl) (by simp) found
      have few := announced_length announcement
      exact .array (by simp at length; omega) all

/-- Every value that is read is well-formed. -/
theorem readNested_wellFormed {levels : Nat} {bytes rest : Bytes} {value : Value}
    (found : readNested levels bytes = .value value rest) : WellFormed levels value := by
  induction levels using Nat.strongRecOn generalizing bytes rest value with
  | ind levels ih =>
    rw [readNested_eq] at found
    cases split : Bytes.splitLine? bytes with
    | none => simp [readFrame, split] at found
    | some parts =>
      obtain ⟨line, later⟩ := parts
      rw [readFrame_of_splitLine? _ split] at found
      have unbroken := (Bytes.splitLine?_eq_some_iff.mp split).2
      cases line with
      | nil => cases found
      | cons mark content =>
        have whole : ¬ Bytes.lineEnd <:+: content := fun inside =>
          unbroken (inside.trans (List.suffix_cons mark content).isInfix)
        rw [readBehind] at found
        split at found
        · exact readText_wellFormed whole (fun _ => .simple) found
        split at found
        · exact readText_wellFormed whole (fun _ => .error) found
        split at found
        · unfold readInteger at found
          split at found
          · cases found
            exact .integer
          · cases found
        split at found
        · exact readBulk_wellFormed found
        split at found
        · refine readArray_wellFormed ?_ found
          intro below same bytes value rest read
          exact ih below (by omega) read
        · cases found

theorem decoded_wellFormed (bytes : Bytes) :
    ∀ value ∈ (decoded bytes).values, WellFormed maxDepth value := by
  induction bytes using decoded_induction with
  | taken bytes value rest found ih =>
    intro other member
    rw [decoded_of_value found] at member
    rcases List.mem_cons.mp member with rfl | later
    · exact readNested_wellFormed found
    · exact ih other later
  | incomplete bytes found => simp [decoded_of_incomplete found]
  | malformed bytes fault found => simp [decoded_of_malformed found]

/-- A request is well formed if its parts are no more, and no longer, than a reader takes. -/
theorem wellFormed_ofParts_iff {parts : List Bytes} {levels : Nat} :
    WellFormed (levels + 1) (ofParts parts) ↔
      parts.length ≤ maxArrayLength ∧ ∀ part ∈ parts, part.length ≤ maxBulkLength := by
  constructor
  · intro formed
    unfold ofParts at formed
    cases parts with
    | nil => simp
    | cons first later =>
      cases formed with
      | array few each =>
        refine ⟨by simpa using few, ?_⟩
        intro part member
        cases each (.bulk part) (List.mem_map.mpr ⟨part, member, rfl⟩) with
        | bulk short => exact short
  · rintro ⟨few, short⟩
    refine .array (by simpa using few) ?_
    intro element member
    obtain ⟨part, inside, rfl⟩ := List.mem_map.mp member
    exact .bulk (short part inside)

end Value

namespace Snapshot

theorem read_encode {payload : Bytes} (short : payload.length ≤ Value.maxBulkLength) (rest : Bytes) :
    read (encode payload ++ rest) = .value payload rest := by
  have whole := Bytes.not_lineEnd_infix_of_notMem
    (Decimal.carriageReturn_notMem_ofNat payload.length)
  have split := Bytes.splitLine?_line (by decide : Value.bulkMark ≠ Bytes.carriageReturn) whole
    (payload ++ rest)
  rw [encode, List.append_assoc, read_of_splitLine? split]
  simp only [readBehind, if_true, Decimal.unsigned?_ofNat short, readPayload,
    Bytes.splitCount?_eq_some_iff.mpr ⟨rfl, rfl⟩]

end Snapshot

end RespKeyspace
