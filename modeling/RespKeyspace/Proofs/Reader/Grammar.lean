import RespKeyspace.Proofs.Reader.Spelling

/-! The grammar of frames, said without a reader. No frame is the beginning of another one,
each denotes one value, and a reader takes exactly the frames of the outermost depth. -/

namespace RespKeyspace

namespace Decimal

def digitByte (digit : Nat) : UInt8 := UInt8.ofNat (0x30 + digit)

/-- One or more digits, the last one worth least, and the number they denote. -/
inductive Digits : Bytes → Nat → Prop where
  | last {digit} (small : digit < 10) : Digits [digitByte digit] digit
  | more {front number digit} (earlier : Digits front number) (small : digit < 10) :
      Digits (front ++ [digitByte digit]) (number * 10 + digit)

/-- Digits, perhaps behind a single sign, and the number they denote. -/
inductive Numeral : Bytes → Int → Prop where
  | plain {digits number} (run : Digits digits number) : Numeral digits number
  | plus {digits number} (run : Digits digits number) : Numeral (0x2B :: digits) number
  | minus {digits number} (run : Digits digits number) : Numeral (0x2D :: digits) (-number)

variable {limit number : Nat} {bytes : Bytes}

private theorem toUInt8_digitChar {digit : Nat} (small : digit < 10) :
    (Nat.digitChar digit).toUInt8 = digitByte digit := by
  revert digit
  decide

private theorem digit?_digitByte {digit : Nat} (small : digit < 10) :
    digit? (digitByte digit) = some digit := by
  rw [← toUInt8_digitChar small]
  exact digit?_digitChar small

theorem Digits.digitsAfter (run : Digits bytes number) (within : number ≤ limit) :
    digitsAfter limit 0 bytes = some number := by
  induction run with
  | last small => simp [Decimal.digitsAfter, digit?_digitByte small, within]
  | more earlier small ih =>
    rw [digitsAfter_append, ih (by omega)]
    simp [Decimal.digitsAfter, digit?_digitByte small, within]

theorem Digits.ne_nil (run : Digits bytes number) : bytes ≠ [] := by
  cases run <;> simp

theorem digits?_eq_some_iff :
    digits? limit bytes = some number ↔ Digits bytes number ∧ number ≤ limit := by
  constructor
  · intro read
    obtain ⟨filled, denotes, within⟩ := digits?_eq_some read
    refine ⟨?_, within⟩
    clear read within
    induction bytes using List.reverseRecOn generalizing number with
    | nil => exact absurd rfl filled
    | append_singleton front byte ih =>
      obtain ⟨earlier, digit, before, small, rfl, rfl⟩ := digitsAfter_concat denotes
      rw [toUInt8_digitChar small]
      cases front with
      | nil =>
        obtain rfl : 0 = earlier := Option.some.inj before
        simpa using Digits.last small
      | cons next later => exact .more (ih (List.cons_ne_nil next later) before) small
  · rintro ⟨run, within⟩
    obtain ⟨first, rest, rfl⟩ := List.exists_cons_of_ne_nil run.ne_nil
    exact run.digitsAfter within

theorem Digits.unique {other : Nat} (run : Digits bytes number) (again : Digits bytes other) :
    number = other := by
  have first := run.digitsAfter (Nat.le_max_left number other)
  have second := again.digitsAfter (Nat.le_max_right number other)
  exact Option.some.inj (first.symm.trans second)

theorem Digits.isDigit (run : Digits bytes number) : ∀ byte ∈ bytes, (digit? byte).isSome = true :=
  isDigit_of_digitsAfter (run.digitsAfter (Nat.le_refl number))

private theorem not_digits_of_sign {sign : UInt8} (signed : sign = 0x2B ∨ sign = 0x2D) :
    ¬ Digits (sign :: bytes) number := by
  intro run
  have digit := run.isDigit sign List.mem_cons_self
  rcases signed with rfl | rfl <;> simp [digit?] at digit

theorem Numeral.unique {number other : Int} (numeral : Numeral bytes number)
    (again : Numeral bytes other) : number = other := by
  cases numeral with
  | plain run =>
    cases again with
    | plain again => rw [run.unique again]
    | plus => exact absurd run (not_digits_of_sign (.inl rfl))
    | minus => exact absurd run (not_digits_of_sign (.inr rfl))
  | plus run =>
    cases again with
    | plain again => exact absurd again (not_digits_of_sign (.inl rfl))
    | plus again => rw [run.unique again]
  | minus run =>
    cases again with
    | plain again => exact absurd again (not_digits_of_sign (.inr rfl))
    | minus again => rw [run.unique again]

theorem Numeral.carriageReturn_notMem {number : Int} (numeral : Numeral bytes number) :
    Bytes.carriageReturn ∉ bytes := by
  have absent : ∀ {digits number}, Digits digits number → Bytes.carriageReturn ∉ digits := by
    intro digits number run member
    have digit := run.isDigit _ member
    simp [digit?, Bytes.carriageReturn] at digit
  cases numeral with
  | plain run => exact absent run
  | plus run => simpa [Bytes.carriageReturn] using absent run
  | minus run => simpa [Bytes.carriageReturn] using absent run

/-- A number of the signed 64-bit range is read from exactly the numerals that denote it. -/
theorem signed?_eq_some_iff {number : Int64} :
    signed? bytes = some number ↔ Numeral bytes number.toInt := by
  constructor
  · intro read
    rcases signed?_cases read with
      ⟨digits, magnitude, rfl, found, same⟩ | ⟨digits, magnitude, rfl | rfl, found, same⟩
    · rw [same]
      exact .minus (digits?_eq_some_iff.mp found).1
    · rw [same]
      exact .plain (digits?_eq_some_iff.mp found).1
    · rw [same]
      exact .plus (digits?_eq_some_iff.mp found).1
  · have low := number.le_toInt
    have high := number.toInt_lt
    have whole : Int64.ofInt number.toInt = number := Int64.ofInt_toInt number
    intro numeral
    generalize number.toInt = integer at numeral low high whole
    cases numeral with
    | @plain digits magnitude run =>
      have within : magnitude ≤ maxSigned := by unfold maxSigned; omega
      have read := unsigned?_of_digits? (digits?_eq_some_iff.mpr ⟨run, within⟩)
      rw [signed?_of_unsigned? read, ← whole]
      rfl
    | @plus digits magnitude run =>
      have within : magnitude ≤ maxSigned := by unfold maxSigned; omega
      have read : unsigned? maxSigned (0x2B :: digits) = some magnitude :=
        digits?_eq_some_iff.mpr ⟨run, within⟩
      rw [signed?_of_unsigned? read, ← whole]
      rfl
    | @minus digits magnitude run =>
      have within : magnitude ≤ maxSigned + 1 := by unfold maxSigned; omega
      rw [signed?, digits?_eq_some_iff.mpr ⟨run, within⟩, ← whole]
      rfl

end Decimal

namespace Value

/-- Limits on frames: the bytes of a bulk string, the elements of an array, and the depth at
which only empty arrays stand. -/
structure Limits where
  bulk : Nat
  array : Nat
  depth : Nat

def Limits.enforced : Limits := ⟨maxBulkLength, maxArrayLength, maxDepth⟩

/-- The frames that may stand at a depth, each with the value it denotes. -/
inductive Framed (limits : Limits) : Nat → Bytes → Value → Prop where
  | simple {depth text} (unbroken : ¬ Bytes.lineEnd <:+: Bytes.ofText text) :
      Framed limits depth (line simpleMark (Bytes.ofText text)) (.simple text)
  | error {depth text} (unbroken : ¬ Bytes.lineEnd <:+: Bytes.ofText text) :
      Framed limits depth (line errorMark (Bytes.ofText text)) (.error text)
  | integer {depth digits} {number : Int64} (numeral : Decimal.Numeral digits number.toInt) :
      Framed limits depth (line integerMark digits) (.integer number)
  | bulk {depth digits content} (numeral : Decimal.Numeral digits (content.length : Nat))
      (short : content.length ≤ limits.bulk) :
      Framed limits depth (line bulkMark digits ++ content ++ Bytes.lineEnd) (.bulk content)
  | null {depth mark digits} (header : mark = bulkMark ∨ mark = arrayMark)
      (numeral : Decimal.Numeral digits (-1)) : Framed limits depth (line mark digits) .null
  | array {depth digits} {parts : List (Value × Bytes)}
      (numeral : Decimal.Numeral digits (parts.length : Nat)) (few : parts.length ≤ limits.array)
      (above : parts = [] ∨ depth < limits.depth)
      (each : ∀ part ∈ parts, Framed limits (depth + 1) part.2 part.1) :
      Framed limits depth (line arrayMark digits ++ parts.flatMap Prod.snd)
        (.array (parts.map Prod.fst))

section

variable {limits others : Limits} {depth level : Nat} {form other rest behind : Bytes}
  {value denoted : Value}

private theorem line_append_inj {mark sign : UInt8} {content text : Bytes}
    (differ : mark ≠ Bytes.carriageReturn)
    (unbroken : ¬ Bytes.lineEnd <:+: content) (whole : ¬ Bytes.lineEnd <:+: text)
    (same : line mark content ++ rest = line sign text ++ behind) :
    mark = sign ∧ content = text ∧ rest = behind := by
  have marks : mark = sign := (List.cons.inj same).1
  subst marks
  have split := Bytes.splitLine?_line differ unbroken rest
  rw [same, Bytes.splitLine?_line differ whole behind] at split
  simp only [Option.some.injEq, Prod.mk.injEq, List.cons.injEq, true_and] at split
  exact ⟨rfl, split.1.symm, split.2.symm⟩

theorem unbroken_of_numeral {digits : Bytes} {number : Int} (numeral : Decimal.Numeral digits number) :
    ¬ Bytes.lineEnd <:+: digits :=
  Bytes.not_lineEnd_infix_of_notMem numeral.carriageReturn_notMem

/-- Bytes that begin with this form of this value begin with no other frame. -/
def SelfDelimiting (form : Bytes) (value : Value) : Prop :=
  ∀ {limits depth other denoted rest behind}, Framed limits depth other denoted →
    form ++ rest = other ++ behind → form = other ∧ value = denoted

private theorem parts_unique {parts frames : List (Value × Bytes)}
    (each : ∀ part ∈ parts, SelfDelimiting part.2 part.1)
    (framed : ∀ frame ∈ frames, Framed limits depth frame.2 frame.1)
    (count : parts.length = frames.length)
    (same : parts.flatMap Prod.snd ++ rest = frames.flatMap Prod.snd ++ behind) :
    parts = frames := by
  induction parts generalizing frames with
  | nil => exact (List.eq_nil_of_length_eq_zero count.symm).symm
  | cons part later ih =>
    cases frames with
    | nil => cases count
    | cons frame following =>
      rw [List.flatMap_cons, List.flatMap_cons, List.append_assoc, List.append_assoc] at same
      obtain ⟨form, value⟩ := each part List.mem_cons_self (framed frame List.mem_cons_self) same
      rw [form] at same
      have tails := ih (fun part member => each part (List.mem_cons_of_mem _ member))
        (fun frame member => framed frame (List.mem_cons_of_mem _ member))
        (Nat.succ.inj count) (List.append_cancel_left same)
      rw [tails, Prod.ext value form]

private theorem text_line_unique {mark sign : UInt8} {text said : String}
    (differ : mark ≠ Bytes.carriageReturn)
    (unbroken : ¬ Bytes.lineEnd <:+: Bytes.ofText text) (whole : ¬ Bytes.lineEnd <:+: Bytes.ofText said)
    (same : line mark (Bytes.ofText text) ++ rest = line sign (Bytes.ofText said) ++ behind) :
    text = said := by
  obtain ⟨_, bytes, _⟩ := line_append_inj differ unbroken whole same
  have read := Utf8.decode?_eq_some_iff.mpr bytes
  rw [Utf8.decode?_eq_some_iff.mpr rfl] at read
  exact Option.some.inj read

private theorem numeral_line_unique {mark sign : UInt8} {digits text : Bytes} {number counted : Int}
    (differ : mark ≠ Bytes.carriageReturn) (numeral : Decimal.Numeral digits number)
    (again : Decimal.Numeral text counted)
    (same : line mark digits ++ rest = line sign text ++ behind) :
    mark = sign ∧ digits = text ∧ number = counted ∧ rest = behind := by
  obtain ⟨marks, rfl, tails⟩ := line_append_inj differ (unbroken_of_numeral numeral)
    (unbroken_of_numeral again) same
  exact ⟨marks, rfl, numeral.unique again, tails⟩

/-- Every frame delimits itself. -/
theorem Framed.selfDelimiting (framed : Framed limits depth form value) : SelfDelimiting form value := by
  -- Frames of two kinds differ in their first byte, but for null, which shares its marks with
  -- strings and arrays and is told from them by a number that is no length.
  induction framed with
  | simple unbroken =>
    intro _ _ _ _ _ _ again same
    cases again with
    | simple whole =>
      rw [text_line_unique (by decide) unbroken whole same]
      exact ⟨rfl, rfl⟩
    | null header => rcases header with rfl | rfl <;> cases (List.cons.inj same).1
    | _ => cases (List.cons.inj same).1
  | error unbroken =>
    intro _ _ _ _ _ _ again same
    cases again with
    | error whole =>
      rw [text_line_unique (by decide) unbroken whole same]
      exact ⟨rfl, rfl⟩
    | null header => rcases header with rfl | rfl <;> cases (List.cons.inj same).1
    | _ => cases (List.cons.inj same).1
  | integer numeral =>
    intro _ _ _ _ _ _ again same
    cases again with
    | integer counted =>
      obtain ⟨_, rfl, numbers, _⟩ := numeral_line_unique (by decide) numeral counted same
      rw [Int64.toInt_inj.mp numbers]
      exact ⟨rfl, rfl⟩
    | null header => rcases header with rfl | rfl <;> cases (List.cons.inj same).1
    | _ => cases (List.cons.inj same).1
  | bulk numeral short =>
    intro _ _ _ _ _ _ again same
    rw [List.append_assoc, List.append_assoc] at same
    cases again with
    | bulk counted _ =>
      rw [List.append_assoc, List.append_assoc] at same
      obtain ⟨_, rfl, lengths, contents⟩ := numeral_line_unique (by decide) numeral counted same
      rw [(List.append_inj contents (Int.ofNat.inj lengths)).1]
      exact ⟨rfl, rfl⟩
    | null header counted =>
      obtain ⟨_, _, lengths, _⟩ := numeral_line_unique (by decide) numeral counted same
      omega
    | _ => cases (List.cons.inj same).1
  | @null _ mark _ header numeral =>
    intro _ _ _ _ _ _ again same
    have differ : mark ≠ Bytes.carriageReturn := by rcases header with rfl | rfl <;> decide
    cases again with
    | null _ counted =>
      obtain ⟨rfl, rfl, _⟩ := numeral_line_unique differ numeral counted same
      exact ⟨rfl, rfl⟩
    | bulk counted _ =>
      rw [List.append_assoc, List.append_assoc] at same
      obtain ⟨_, _, lengths, _⟩ := numeral_line_unique differ numeral counted same
      omega
    | array counted _ _ _ =>
      rw [List.append_assoc] at same
      obtain ⟨_, _, lengths, _⟩ := numeral_line_unique differ numeral counted same
      omega
    | _ => rcases header with rfl | rfl <;> cases (List.cons.inj same).1
  | array numeral few above each ih =>
    intro _ _ _ _ _ _ again same
    rw [List.append_assoc] at same
    cases again with
    | array counted _ _ framed =>
      rw [List.append_assoc] at same
      obtain ⟨_, rfl, lengths, tails⟩ := numeral_line_unique (by decide) numeral counted same
      rw [parts_unique ih framed (Int.ofNat.inj lengths) tails]
      exact ⟨rfl, rfl⟩
    | null header counted =>
      obtain ⟨_, _, lengths, _⟩ := numeral_line_unique (by decide) numeral counted same
      omega
    | _ => cases (List.cons.inj same).1

/-- A length within the signed 64-bit range is denoted by its numerals. -/
theorem denotes_iff {digits : Bytes} {count : Nat} (small : count ≤ Decimal.maxSigned) :
    Denotes digits count ↔ Decimal.Numeral digits count := by
  have same : (Int64.ofNat count).toInt = count := by
    unfold Decimal.maxSigned at small
    exact Int64.toInt_ofNat_of_lt (by omega)
  constructor
  · rintro ⟨number, read, length⟩
    rw [← length]
    exact Decimal.signed?_eq_some_iff.mp read
  · intro numeral
    rw [← same] at numeral
    exact ⟨_, Decimal.signed?_eq_some_iff.mpr numeral, same⟩

theorem Spelling.framed {levels : Nat} (spelled : Spelling levels value form)
    (within : depth + levels ≤ maxDepth) : Framed .enforced depth form value := by
  induction spelled generalizing depth with
  | simple whole => exact .simple whole
  | error whole => exact .error whole
  | integer denotes => exact .integer (Decimal.signed?_eq_some_iff.mp denotes)
  | bulk denotes short =>
    exact .bulk ((denotes_iff (Nat.le_trans short (by decide))).mp denotes) short
  | @empty levels digits denotes =>
    have numeral := (denotes_iff (Nat.zero_le _)).mp denotes
    have framed : Framed .enforced depth (line arrayMark digits ++ List.flatMap Prod.snd [])
        (.array (List.map Prod.fst [])) := .array numeral (Nat.zero_le _) (.inl rfl) (by simp)
    simpa using framed
  | array denotes few each ih =>
    have numeral := (denotes_iff (Nat.le_trans few (by decide))).mp denotes
    have above : depth < maxDepth := by omega
    exact .array numeral few (.inr above) fun part member => ih part member (by omega)
  | null header denotes => exact .null header (Decimal.signed?_eq_some_iff.mp denotes)

theorem Framed.spelling (framed : Framed .enforced depth form value) :
    Spelling (maxDepth - depth) value form := by
  induction framed with
  | simple unbroken => exact .simple unbroken
  | error unbroken => exact .error unbroken
  | integer numeral => exact .integer (Decimal.signed?_eq_some_iff.mpr numeral)
  | bulk numeral short =>
    exact .bulk ((denotes_iff (Nat.le_trans short (by decide))).mpr numeral) short
  | null header numeral => exact .null header (Decimal.signed?_eq_some_iff.mpr numeral)
  | @array depth digits parts numeral few above each ih =>
    have denotes := (denotes_iff (Nat.le_trans few (by decide))).mpr numeral
    rcases above with rfl | above
    · simpa using Spelling.empty denotes
    · have deeper : maxDepth - depth = maxDepth - (depth + 1) + 1 := by
        change depth < maxDepth at above
        omega
      rw [deeper]
      exact .array denotes few ih

/-- A reader takes a value off the front of a buffer exactly if the bytes it takes are a frame
of the outermost depth that denotes the value. No bytes begin with two different frames, of
whatever depths, and no frame denotes two values. -/
theorem read_takes_frames :
    (∀ buffer value rest, read buffer = .value value rest ↔
      ∃ form, buffer = form ++ rest ∧ Framed .enforced 0 form value) ∧
    ∀ buffer depth level form other value denoted, form <+: buffer → other <+: buffer →
      Framed .enforced depth form value → Framed .enforced level other denoted →
      form = other ∧ value = denoted := by
  refine ⟨?_, ?_⟩
  · intro buffer value rest
    rw [read_eq_value_iff]
    constructor
    · rintro ⟨form, spelled, whole⟩
      exact ⟨form, whole, spelled.framed (Nat.le_of_eq (Nat.zero_add maxDepth))⟩
    · rintro ⟨form, whole, framed⟩
      exact ⟨form, framed.spelling, whole⟩
  · rintro buffer depth level form other value denoted ⟨rest, rfl⟩ ⟨behind, same⟩ framed again
    exact framed.selfDelimiting again same.symm

/-- An array of one element, with a padded length and a padded null in it, is the only frame
with which these bytes begin. -/
theorem padded_array_is_sole_frame :
    let buffer := Bytes.ofText "*01\r\n$-01\r\n:"
    ∃ form, buffer = form ++ Bytes.ofText ":" ∧ Framed .enforced 0 form (.array [.null]) ∧
      ∀ level other denoted, other <+: buffer → Framed .enforced level other denoted →
        form = other ∧ .array [.null] = denoted := by
  intro buffer
  obtain ⟨form, whole, framed⟩ :=
    (read_takes_frames.1 buffer (.array [.null]) (Bytes.ofText ":")).mp (by decide +kernel)
  refine ⟨form, whole, framed, ?_⟩
  intro level other denoted begins again
  exact read_takes_frames.2 buffer 0 level form other _ denoted ⟨_, whole.symm⟩ begins framed again

end

end Value

end RespKeyspace
