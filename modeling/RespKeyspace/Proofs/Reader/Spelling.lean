import RespKeyspace.Proofs.Reader.Numeral

/-! The written forms of a value. A reader takes exactly these off the front of a buffer,
and it looks at nothing behind the form it takes. -/

namespace RespKeyspace.Value

/-- A number text that denotes a length. -/
def Denotes (digits : Bytes) (count : Nat) : Prop :=
  ∃ number, Decimal.signed? digits = some number ∧ number.toInt = count

/-- The written forms of a value below which elements may lie `levels` deep. -/
inductive Spelling : Nat → Value → Bytes → Prop where
  | simple {levels text} (whole : ¬ Bytes.lineEnd <:+: Bytes.ofText text) :
      Spelling levels (.simple text) (line simpleMark (Bytes.ofText text))
  | error {levels text} (whole : ¬ Bytes.lineEnd <:+: Bytes.ofText text) :
      Spelling levels (.error text) (line errorMark (Bytes.ofText text))
  | integer {levels number digits} (denotes : Decimal.signed? digits = some number) :
      Spelling levels (.integer number) (line integerMark digits)
  | bulk {levels content digits} (denotes : Denotes digits content.length)
      (short : content.length ≤ maxBulkLength) :
      Spelling levels (.bulk content) (line bulkMark digits ++ content ++ Bytes.lineEnd)
  | empty {levels digits} (denotes : Denotes digits 0) :
      Spelling levels (.array []) (line arrayMark digits)
  | array {levels digits} {parts : List (Value × Bytes)} (denotes : Denotes digits parts.length)
      (few : parts.length ≤ maxArrayLength) (each : ∀ part ∈ parts, Spelling levels part.1 part.2) :
      Spelling (levels + 1) (.array (parts.map Prod.fst))
        (line arrayMark digits ++ parts.flatMap Prod.snd)
  | null {levels mark digits} (header : mark = bulkMark ∨ mark = arrayMark)
      (denotes : Decimal.signed? digits = some (-1)) : Spelling levels .null (line mark digits)

section

variable {limit count : Nat} {content rest behind bytes : Bytes} {value : Value}

theorem announced_absent_iff : announced limit content = .absent ↔ Decimal.signed? content = some (-1) := by
  unfold announced
  cases Decimal.signed? content with
  | none => simp
  | some number =>
    by_cases negative : number = -1
    · simp [negative]
    · simp only [negative, if_false, Option.some.injEq, iff_false]
      split <;> simp

theorem announced_length_iff :
    announced limit content = .length count ↔ Denotes content count ∧ count ≤ limit := by
  unfold announced Denotes
  cases Decimal.signed? content with
  | none => simp
  | some number =>
    simp only [Option.some.injEq, exists_eq_left']
    by_cases negative : number = -1
    · subst negative
      have below : (-1 : Int64).toInt = -1 := by decide
      have apart : ¬ ((-1 : Int64).toInt = count ∧ count ≤ limit) := by
        rintro ⟨same, _⟩
        rw [below] at same
        omega
      rw [if_pos rfl]
      exact iff_of_false (by simp) apart
    · simp only [negative, if_false]
      split
      · rename_i range
        simp only [Announcement.length.injEq]
        omega
      · rename_i range
        simp only [reduceCtorEq, false_iff]
        omega

theorem readText_eq_value_iff {make : String → Value} :
    readText make content rest = .value value behind ↔
      ∃ text, content = Bytes.ofText text ∧ value = make text ∧ behind = rest := by
  unfold readText
  constructor
  · intro found
    split at found
    · rename_i text read
      cases found
      exact ⟨text, Utf8.decode?_eq_some_iff.mp read, rfl, rfl⟩
    · cases found
  · rintro ⟨text, rfl, rfl, rfl⟩
    rw [Utf8.decode?_eq_some_iff.mpr rfl]

theorem readInteger_eq_value_iff :
    readInteger content rest = .value value behind ↔
      ∃ number, Decimal.signed? content = some number ∧ value = .integer number ∧ behind = rest := by
  unfold readInteger
  cases Decimal.signed? content with
  | none => simp
  | some number => simp [eq_comm]

theorem readContent_eq_value_iff :
    readContent count rest = .value value behind ↔
      ∃ payload, value = .bulk payload ∧ payload.length = count ∧
        rest = payload ++ Bytes.lineEnd ++ behind := by
  constructor
  · intro found
    obtain ⟨payload, first, second, later, split⟩ :=
      splitCount?_of_readContent (by simp [found] : readContent count rest ≠ .incomplete)
    obtain ⟨whole, length⟩ := Bytes.splitCount?_append split
    rw [readContent_eq split] at found
    split at found
    · rename_i ends
      cases found
      refine ⟨payload, rfl, length, ?_⟩
      simp [whole, ends, Bytes.lineEnd]
    · cases found
  · rintro ⟨payload, rfl, rfl, rfl⟩
    exact readContent_encode payload behind

theorem exists_splitCount? (enough : count + Bytes.lineEnd.length ≤ rest.length) :
    ∃ payload first second behind,
      Bytes.splitCount? count rest = some (payload, first :: second :: behind) := by
  have ends : Bytes.lineEnd.length = 2 := rfl
  have apart : rest.take count ++ rest.drop count = rest := List.take_append_drop _ _
  match same : rest.drop count with
  | first :: second :: behind =>
    refine ⟨rest.take count, first, second, behind, ?_⟩
    exact Bytes.splitCount?_eq_some_iff.mpr ⟨same ▸ apart.symm, List.length_take_of_le (by omega)⟩
  | [_] | [] =>
    have left := congrArg List.length same
    simp only [List.length_drop, List.length_cons, List.length_nil] at left
    omega

theorem readContent_eq_incomplete_iff :
    readContent count rest = .incomplete ↔ rest.length < count + Bytes.lineEnd.length := by
  constructor
  · intro undecided
    by_contra enough
    obtain ⟨payload, first, second, behind, split⟩ := exists_splitCount? (Nat.le_of_not_lt enough)
    rw [readContent_eq split] at undecided
    split at undecided <;> cases undecided
  · intro lacks
    by_contra decided
    obtain ⟨payload, first, second, behind, split⟩ := splitCount?_of_readContent decided
    obtain ⟨rfl, rfl⟩ := Bytes.splitCount?_append split
    simp only [List.length_append, List.length_cons] at lacks
    have ends : Bytes.lineEnd.length = 2 := rfl
    omega

theorem readBulk_eq_value_iff :
    readBulk content rest = .value value behind ↔
      (announced maxBulkLength content = .absent ∧ value = .null ∧ behind = rest) ∨
      ∃ count, announced maxBulkLength content = .length count ∧
        readContent count rest = .value value behind := by
  cases announcement : announced maxBulkLength content with
  | absent => simp [readBulk, announcement, eq_comm]
  | refused => simp [readBulk, announcement]
  | length count =>
    have same : readBulk content rest = readContent count rest := by
      simp only [readBulk, announcement]
      rfl
    simp [same]

theorem readArray_eq_value_iff {element? : Option (Bytes → Reading FrameFault Value)} :
    readArray element? content rest = .value value behind ↔
      (announced maxArrayLength content = .absent ∧ value = .null ∧ behind = rest) ∨
      (announced maxArrayLength content = .length 0 ∧ value = .array [] ∧ behind = rest) ∨
      ∃ count element, announced maxArrayLength content = .length (count + 1) ∧
        element? = some element ∧ readElements element (count + 1) [] rest = .value value behind := by
  unfold readArray
  cases announced maxArrayLength content with
  | absent => simp [eq_comm]
  | refused => simp
  | length count =>
    cases count with
    | zero => simp [eq_comm]
    | succ count => cases element? <;> simp

/-- What elements are read from, and what the elements are, if the reader of one element
takes exactly the forms that `forms` describes. -/
theorem readElements_eq_value_iff {element : Bytes → Reading FrameFault Value}
    {forms : Value → Bytes → Prop}
    (exact : ∀ bytes value rest, element bytes = .value value rest ↔
      ∃ form, forms value form ∧ bytes = form ++ rest) {done : List Value} :
    readElements element count done bytes = .value value rest ↔
      ∃ parts : List (Value × Bytes), parts.length = count ∧
        (∀ part ∈ parts, forms part.1 part.2) ∧
        value = .array (done.reverse ++ parts.map Prod.fst) ∧
        bytes = parts.flatMap Prod.snd ++ rest := by
  induction count generalizing done bytes with
  | zero =>
    constructor
    · intro found
      cases found
      exact ⟨[], rfl, by simp, by simp, by simp⟩
    · rintro ⟨parts, none, _, rfl, rfl⟩
      obtain rfl := List.eq_nil_of_length_eq_zero none
      simp [readElements]
  | succ count ih =>
    rw [readElements]
    constructor
    · intro found
      split at found
      · rename_i first behind read
        obtain ⟨form, spelled, rfl⟩ := (exact _ _ _).mp read
        obtain ⟨parts, length, each, rfl, rfl⟩ := ih.mp found
        refine ⟨(first, form) :: parts, by simp [length], ?_, by simp, by simp⟩
        intro part member
        rcases List.mem_cons.mp member with rfl | later
        · exact spelled
        · exact each part later
      · cases found
      · cases found
    · rintro ⟨parts, length, each, rfl, rfl⟩
      obtain ⟨first, later, rfl⟩ := List.exists_cons_of_length_eq_add_one length
      have read := (exact (first.2 ++ (later.flatMap Prod.snd ++ rest)) first.1 _).mpr
        ⟨first.2, each first (by simp), rfl⟩
      rw [List.flatMap_cons, List.append_assoc, read]
      refine ih.mpr ⟨later, by simpa using length, ?_, by simp, rfl⟩
      intro part member
      exact each part (by simp [member])

end

section

variable {levels : Nat} {bytes rest content later : Bytes} {value : Value} {mark : UInt8}

theorem readNested_eq_value_iff_line :
    readNested levels bytes = .value value rest ↔
      ∃ mark content later, ¬ Bytes.lineEnd <:+: mark :: content ∧
        bytes = line mark content ++ later ∧
        readBehind (elementReader? levels) (mark :: content) later = .value value rest := by
  rw [readNested_eq]
  constructor
  · intro found
    cases split : Bytes.splitLine? bytes with
    | none => simp [readFrame, split] at found
    | some parts =>
      obtain ⟨line, later⟩ := parts
      obtain ⟨whole, unbroken⟩ := Bytes.splitLine?_eq_some_iff.mp split
      rw [readFrame_of_splitLine? _ split] at found
      cases line with
      | nil => cases found
      | cons mark content => exact ⟨mark, content, later, unbroken, whole, found⟩
  · rintro ⟨mark, content, later, unbroken, rfl, found⟩
    have split : Bytes.splitLine? (line mark content ++ later) = some (mark :: content, later) :=
      Bytes.splitLine?_eq_some_iff.mpr ⟨rfl, unbroken⟩
    rw [readFrame_of_splitLine? _ split]
    exact found

theorem readBehind_eq_value_cases {element? : Option (Bytes → Reading FrameFault Value)}
    (found : readBehind element? (mark :: content) later = .value value rest) :
    (mark = simpleMark ∧ readText .simple content later = .value value rest) ∨
    (mark = errorMark ∧ readText .error content later = .value value rest) ∨
    (mark = integerMark ∧ readInteger content later = .value value rest) ∨
    (mark = bulkMark ∧ readBulk content later = .value value rest) ∨
    (mark = arrayMark ∧ readArray element? content later = .value value rest) := by
  rw [readBehind] at found
  split at found
  · exact .inl ⟨‹_›, found⟩
  split at found
  · exact .inr (.inl ⟨‹_›, found⟩)
  split at found
  · exact .inr (.inr (.inl ⟨‹_›, found⟩))
  split at found
  · exact .inr (.inr (.inr (.inl ⟨‹_›, found⟩)))
  split at found
  · exact .inr (.inr (.inr (.inr ⟨‹_›, found⟩)))
  · cases found

private theorem not_lineEnd_infix_of_signed? {digits : Bytes} {number : Int64}
    (read : Decimal.signed? digits = some number) : ¬ Bytes.lineEnd <:+: digits :=
  Bytes.not_lineEnd_infix_of_notMem (Decimal.carriageReturn_notMem_of_signed? read)

theorem Denotes.whole {digits : Bytes} {count : Nat} (denotes : Denotes digits count) :
    ¬ Bytes.lineEnd <:+: digits := by
  obtain ⟨number, read, _⟩ := denotes
  exact not_lineEnd_infix_of_signed? read

private theorem readNested_of_readBehind (differ : mark ≠ Bytes.carriageReturn)
    (whole : ¬ Bytes.lineEnd <:+: content)
    (found : readBehind (elementReader? levels) (mark :: content) later = .value value rest) :
    readNested levels (line mark content ++ later) = .value value rest :=
  (readNested_line levels differ whole later).trans found

/-- The forms that a reader takes are those of the value it gives. -/
def TakesForms (levels : Nat) : Prop :=
  ∀ bytes value rest, readNested levels bytes = .value value rest ↔
    ∃ form, Spelling levels value form ∧ bytes = form ++ rest

private theorem exists_spelling_of_readNested (below : ∀ lower, levels = lower + 1 → TakesForms lower)
    (found : readNested levels bytes = .value value rest) :
    ∃ form, Spelling levels value form ∧ bytes = form ++ rest := by
  obtain ⟨mark, content, later, unbroken, rfl, behind⟩ := readNested_eq_value_iff_line.mp found
  have whole : ¬ Bytes.lineEnd <:+: content := fun inside =>
    unbroken (inside.trans (List.suffix_cons mark content).isInfix)
  rcases readBehind_eq_value_cases behind with
    ⟨rfl, read⟩ | ⟨rfl, read⟩ | ⟨rfl, read⟩ | ⟨rfl, read⟩ | ⟨rfl, read⟩
  · obtain ⟨text, rfl, rfl, rfl⟩ := readText_eq_value_iff.mp read
    exact ⟨_, .simple whole, rfl⟩
  · obtain ⟨text, rfl, rfl, rfl⟩ := readText_eq_value_iff.mp read
    exact ⟨_, .error whole, rfl⟩
  · obtain ⟨number, denotes, rfl, rfl⟩ := readInteger_eq_value_iff.mp read
    exact ⟨_, .integer denotes, rfl⟩
  · rcases readBulk_eq_value_iff.mp read with ⟨absent, rfl, rfl⟩ | ⟨count, announcement, payload⟩
    · exact ⟨_, .null (.inl rfl) (announced_absent_iff.mp absent), rfl⟩
    · obtain ⟨denotes, short⟩ := announced_length_iff.mp announcement
      obtain ⟨payload, rfl, rfl, rfl⟩ := readContent_eq_value_iff.mp payload
      exact ⟨_, .bulk denotes short, by simp⟩
  · rcases readArray_eq_value_iff.mp read with
      ⟨absent, rfl, rfl⟩ | ⟨none, rfl, rfl⟩ | ⟨count, element, announcement, reader, elements⟩
    · exact ⟨_, .null (.inr rfl) (announced_absent_iff.mp absent), rfl⟩
    · exact ⟨_, .empty (announced_length_iff.mp none).1, rfl⟩
    · cases levels with
      | zero => cases reader
      | succ lower =>
        obtain rfl := Option.some.inj reader
        obtain ⟨denotes, few⟩ := announced_length_iff.mp announcement
        obtain ⟨parts, length, each, rfl, rfl⟩ := (readElements_eq_value_iff (below lower rfl)).mp elements
        rw [← length] at denotes few
        exact ⟨_, .array denotes few each, by simp⟩

private theorem readNested_of_spelling (below : ∀ lower, levels = lower + 1 → TakesForms lower)
    {form : Bytes}
    (spelled : Spelling levels value form) (rest : Bytes) :
    readNested levels (form ++ rest) = .value value rest := by
  cases spelled with
  | simple whole => exact readNested_of_readBehind (by decide) whole (readText_encode .simple rest)
  | error whole => exact readNested_of_readBehind (by decide) whole (readText_encode .error rest)
  | @integer _ number digits denotes =>
    refine readNested_of_readBehind (by decide) (not_lineEnd_infix_of_signed? denotes) ?_
    exact readInteger_eq_value_iff.mpr ⟨number, denotes, rfl, rfl⟩
  | @bulk _ content digits denotes short =>
    have announcement := announced_length_iff.mpr ⟨denotes, short⟩
    rw [List.append_assoc, List.append_assoc]
    refine readNested_of_readBehind (by decide) denotes.whole ?_
    refine readBulk_eq_value_iff.mpr (.inr ⟨_, announcement, ?_⟩)
    exact readContent_eq_value_iff.mpr ⟨content, rfl, rfl, by simp⟩
  | empty denotes =>
    have announcement := announced_length_iff.mpr ⟨denotes, Nat.zero_le maxArrayLength⟩
    refine readNested_of_readBehind (by decide) denotes.whole ?_
    exact readArray_eq_value_iff.mpr (.inr (.inl ⟨announcement, rfl, rfl⟩))
  | @array lower digits parts denotes few each =>
    have announcement := announced_length_iff.mpr ⟨denotes, few⟩
    rw [List.append_assoc]
    refine readNested_of_readBehind (by decide) denotes.whole ?_
    cases parts with
    | nil =>
      change readArray (some (readNested lower)) digits rest = .value (.array []) rest
      exact readArray_eq_value_iff.mpr (.inr (.inl ⟨announcement, rfl, rfl⟩))
    | cons first later =>
      refine readArray_eq_value_iff.mpr (.inr (.inr ⟨_, _, announcement, rfl, ?_⟩))
      exact (readElements_eq_value_iff (below lower rfl)).mpr ⟨_, rfl, each, rfl, rfl⟩
  | null header denotes =>
    have whole := not_lineEnd_infix_of_signed? denotes
    rcases header with rfl | rfl
    · refine readNested_of_readBehind (by decide) whole ?_
      exact readBulk_eq_value_iff.mpr (.inl ⟨announced_absent_iff.mpr denotes, rfl, rfl⟩)
    · refine readNested_of_readBehind (by decide) whole ?_
      exact readArray_eq_value_iff.mpr (.inl ⟨announced_absent_iff.mpr denotes, rfl, rfl⟩)

/-- A reader takes exactly the written forms of a value off the front of a buffer. -/
theorem takesForms (levels : Nat) : TakesForms levels := by
  induction levels using Nat.strongRecOn with
  | ind levels ih =>
    have below : ∀ lower, levels = lower + 1 → TakesForms lower := fun lower same =>
      ih lower (by omega)
    intro bytes value rest
    constructor
    · exact exists_spelling_of_readNested below
    · rintro ⟨form, spelled, rfl⟩
      exact readNested_of_spelling below spelled rest

theorem read_eq_value_iff :
    read bytes = .value value rest ↔ ∃ form, Spelling maxDepth value form ∧ bytes = form ++ rest :=
  takesForms maxDepth bytes value rest

theorem exists_form_of_read (found : read bytes = .value value rest) :
    ∃ form, bytes = form ++ rest ∧ read form = .value value [] := by
  obtain ⟨form, spelled, rfl⟩ := read_eq_value_iff.mp found
  exact ⟨form, rfl, read_eq_value_iff.mpr ⟨form, spelled, by simp⟩⟩

end

end RespKeyspace.Value

namespace RespKeyspace.Snapshot

variable {bytes payload rest : Bytes}

theorem read_eq_value_iff :
    read bytes = .value payload rest ↔
      ∃ digits, Decimal.unsigned? Value.maxBulkLength digits = some payload.length ∧
        bytes = Value.line Value.bulkMark digits ++ payload ++ rest := by
  constructor
  · intro found
    cases split : Bytes.splitLine? bytes with
    | none => simp [read, split] at found
    | some parts =>
      obtain ⟨line, later⟩ := parts
      obtain ⟨rfl, _⟩ := Bytes.splitLine?_eq_some_iff.mp split
      rw [read_of_splitLine? split] at found
      cases line with
      | nil => cases found
      | cons mark digits =>
        rw [readBehind] at found
        split at found
        · rename_i marked
          split at found
          · cases found
          · rename_i count announced
            rw [readPayload] at found
            split at found
            · cases found
            · rename_i divided
              cases found
              obtain ⟨rfl, rfl⟩ := Bytes.splitCount?_append divided
              exact ⟨digits, announced, by simp [Value.line, marked]⟩
        · cases found
  · rintro ⟨digits, announced, rfl⟩
    have whole := Bytes.not_lineEnd_infix_of_notMem (Decimal.carriageReturn_notMem_of_unsigned? announced)
    rw [List.append_assoc, read_of_splitLine? (Bytes.splitLine?_line (by decide) whole _)]
    simp only [readBehind, if_true, announced, readPayload,
      Bytes.splitCount?_eq_some_iff.mpr ⟨rfl, rfl⟩]

theorem exists_form_of_read (found : read bytes = .value payload rest) :
    ∃ form, bytes = form ++ rest ∧ read form = .value payload [] := by
  obtain ⟨digits, announced, rfl⟩ := read_eq_value_iff.mp found
  exact ⟨_, rfl, read_eq_value_iff.mpr ⟨digits, announced, by simp⟩⟩

end RespKeyspace.Snapshot
