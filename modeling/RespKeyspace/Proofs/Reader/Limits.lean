import RespKeyspace.Proofs.Reader.Domain
import RespKeyspace.Proofs.Reader.Grammar

/-! The limits on frames. What is read keeps them, but for an empty array one level too deep, and
a header that breaks one of them is refused as soon as its line ends, wherever it stands. -/

namespace RespKeyspace

namespace Bytes

theorem splitLine?_eq_none {bytes : Bytes} (unended : ¬ lineEnd <:+: bytes) :
    splitLine? bytes = none := by
  cases split : splitLine? bytes with
  | none => rfl
  | some parts =>
    obtain ⟨line, rest⟩ := parts
    exact absurd ⟨line, rest, (splitLine?_append split).symm⟩ unended

private theorem not_lineEnd_infix_concat {line : Bytes} (absent : carriageReturn ∉ line) :
    ¬ lineEnd <:+: line ++ [carriageReturn] := by
  intro inside
  rcases List.infix_concat_iff.mp inside with last | earlier
  · obtain ⟨front, same⟩ := last
    have ends := congrArg List.getLast? same
    simp [lineEnd, lineFeed, carriageReturn] at ends
  · exact not_lineEnd_infix_of_notMem absent earlier

end Bytes

namespace Value

mutual

/-- The levels of arrays in a value: an array is one more than the deepest of its elements. -/
def nesting : Value → Nat
  | .array elements => nestingAll elements + 1
  | _ => 0

def nestingAll : List Value → Nat
  | [] => 0
  | value :: rest => max (nesting value) (nestingAll rest)

end

section

variable {depth : Nat} {value part : Value} {values : List Value}

theorem lt_nestingAll_iff : depth < nestingAll values ↔ ∃ value ∈ values, depth < nesting value := by
  induction values with
  | nil => simp [nestingAll]
  | cons first rest ih =>
    have either : depth < max first.nesting (nestingAll rest) ↔
        depth < first.nesting ∨ depth < nestingAll rest := by omega
    simp [nestingAll, either, ih]

/-- A value has a level for each depth at which an array stands in it. -/
theorem lt_nesting_iff : depth < nesting value ↔ ∃ elements, Occurs depth (.array elements) value := by
  induction depth generalizing value with
  | zero =>
    constructor
    · intro some
      cases value with
      | array elements => exact ⟨elements, .here⟩
      | _ => simp [nesting] at some
    · intro stands
      obtain ⟨elements, occurs⟩ := stands
      cases occurs with
      | here => simp [nesting]
  | succ depth ih =>
    constructor
    · intro more
      cases value with
      | array elements =>
        rw [nesting, Nat.add_lt_add_iff_right] at more
        obtain ⟨element, member, deep⟩ := lt_nestingAll_iff.mp more
        obtain ⟨inner, occurs⟩ := ih.mp deep
        exact ⟨inner, .inside member occurs⟩
      | _ => simp [nesting] at more
    · intro stands
      obtain ⟨inner, occurs⟩ := stands
      cases occurs with
      | inside member deeper =>
        rw [nesting, Nat.add_lt_add_iff_right]
        exact lt_nestingAll_iff.mpr ⟨_, member, ih.mpr ⟨inner, deeper⟩⟩

private theorem Occurs.parent (occurs : Occurs (depth + 1) part value) :
    ∃ elements, elements ≠ [] ∧ Occurs depth (.array elements) value := by
  induction depth generalizing value with
  | zero =>
    cases occurs with
    | inside member deeper => exact ⟨_, List.ne_nil_of_mem member, .here⟩
  | succ depth ih =>
    cases occurs with
    | inside member deeper =>
      obtain ⟨elements, some, outer⟩ := ih deeper
      exact ⟨elements, some, .inside member outer⟩

/-- A value that is read keeps the limit on nesting, or an empty array stands one level too deep. -/
theorem nesting_cases (formed : WellFormed maxDepth value) :
    value.nesting ≤ maxDepth + 1 ∧
      (value.nesting ≤ maxDepth ↔ ¬ Occurs maxDepth (.array []) value) := by
  have filled : ∀ depth elements, Occurs depth (.array elements) value → elements ≠ [] →
      depth < maxDepth := fun depth elements occurs => (formed.admitted occurs).2
  refine ⟨?_, ?_, ?_⟩
  · by_contra deep
    obtain ⟨inner, deeper⟩ := lt_nesting_iff.mp (Nat.lt_of_not_le deep)
    obtain ⟨outer, some, above⟩ := deeper.parent
    exact Nat.lt_irrefl maxDepth (filled maxDepth outer above some)
  · intro shallow occurs
    exact Nat.not_lt_of_le shallow (lt_nesting_iff.mpr ⟨[], occurs⟩)
  · intro absent
    by_contra deep
    obtain ⟨elements, occurs⟩ := lt_nesting_iff.mp (Nat.lt_of_not_le deep)
    cases elements with
    | nil => exact absent occurs
    | cons first rest => exact Nat.lt_irrefl maxDepth (filled maxDepth _ occurs (List.cons_ne_nil _ _))

end

section

variable {depth : Nat} {front rest : Bytes}

/-- The bytes in front of a place where a value of a request begins, and its depth: the headers of
the arrays around it, each with the elements that are complete, and each lacking one at least. -/
inductive Opening : Nat → Bytes → Prop where
  | outermost : Opening 0 []
  | inside {depth front digits count} {parts : List (Value × Bytes)} (outer : Opening depth front)
      (above : depth < maxDepth) (numeral : Decimal.Numeral digits (count : Nat))
      (few : count ≤ maxArrayLength)
      (each : ∀ part ∈ parts, Framed .enforced (depth + 1) part.2 part.1)
      (missing : parts.length < count) :
      Opening (depth + 1) (front ++ (line arrayMark digits ++ parts.flatMap Prod.snd))

theorem readNested_of_framed {form : Bytes} {value : Value} (framed : Framed .enforced depth form value)
    (rest : Bytes) : readNested (maxDepth - depth) (form ++ rest) = .value value rest :=
  (takesForms _ _ _ _).mpr ⟨form, framed.spelling, rfl⟩

private theorem readElements_halted {element : Bytes → Reading FrameFault Value}
    {parts : List (Value × Bytes)}
    {count : Nat} (each : ∀ part ∈ parts, ∀ rest, element (part.2 ++ rest) = .value part.1 rest)
    (missing : parts.length < count) (none : ∀ value behind, element rest ≠ .value value behind)
    (done : List Value) :
    readElements element count done (parts.flatMap Prod.snd ++ rest) = element rest := by
  obtain ⟨fewer, rfl⟩ := Nat.exists_eq_add_one_of_ne_zero (Nat.ne_zero_of_lt missing)
  induction parts generalizing fewer done with
  | nil =>
    rw [List.flatMap_nil, List.nil_append, readElements]
    cases halted : element rest with
    | value value behind => exact absurd halted (none value behind)
    | incomplete => rfl
    | malformed fault => rfl
  | cons part later ih =>
    rw [List.flatMap_cons, List.append_assoc, readElements, each part List.mem_cons_self]
    rw [List.length_cons, Nat.add_lt_add_iff_right] at missing
    obtain ⟨less, rfl⟩ := Nat.exists_eq_add_one_of_ne_zero (Nat.ne_zero_of_lt missing)
    exact ih (fun part member => each part (List.mem_cons_of_mem _ member)) _ less missing

/-- What is found at the place of the next value, if it is no value, is found of the whole. -/
theorem Opening.read_eq (opening : Opening depth front)
    (none : ∀ value behind, readNested (maxDepth - depth) rest ≠ .value value behind) :
    read (front ++ rest) = readNested (maxDepth - depth) rest := by
  induction opening generalizing rest with
  | outermost => rfl
  | @inside depth front digits count parts outer above numeral few each missing ih =>
    have deeper : maxDepth - depth = maxDepth - (depth + 1) + 1 := by omega
    have denotes := (denotes_iff (Nat.le_trans few (by decide))).mpr numeral
    have within : readNested (maxDepth - depth)
        (line arrayMark digits ++ (parts.flatMap Prod.snd ++ rest)) =
          readNested (maxDepth - (depth + 1)) rest := by
      rw [deeper, readNested_line _ (by decide) denotes.whole]
      change readArray (some (readNested (maxDepth - (depth + 1)))) digits _ = _
      obtain ⟨fewer, rfl⟩ := Nat.exists_eq_add_one_of_ne_zero (Nat.ne_zero_of_lt missing)
      simp only [readArray, announced_length_iff.mpr ⟨denotes, few⟩]
      exact readElements_halted (fun part member => readNested_of_framed (each part member)) missing
        none []
    rw [List.append_assoc, List.append_assoc, ih (within ▸ none), within]

/-- The headers that break a limit at a depth, each with the fault that is reported. -/
inductive Excessive : Nat → Bytes → FrameFault → Prop where
  | long {depth digits number} (numeral : Decimal.Numeral digits (number : Nat))
      (beyond : maxBulkLength < number) : Excessive depth (line bulkMark digits) .invalidBulk
  | many {depth digits number} (numeral : Decimal.Numeral digits (number : Nat))
      (beyond : maxArrayLength < number) : Excessive depth (line arrayMark digits) .invalidArray
  | deep {digits number} (numeral : Decimal.Numeral digits (number : Nat)) (some : 0 < number) :
      Excessive maxDepth (line arrayMark digits) .invalidArray

private theorem announced_of_beyond {limit number : Nat} {digits : Bytes}
    (numeral : Decimal.Numeral digits (number : Nat)) (beyond : limit < number) :
    announced limit digits = .refused := by
  cases announcement : announced limit digits with
  | refused => rfl
  | absent =>
    have read := Decimal.signed?_eq_some_iff.mp (announced_absent_iff.mp announcement)
    have same : (number : Int) = -1 := numeral.unique read
    omega
  | length count =>
    obtain ⟨⟨signed, read, same⟩, within⟩ := announced_length_iff.mp announcement
    have equal := numeral.unique (Decimal.signed?_eq_some_iff.mp read)
    omega

private theorem Excessive.readNested {header : Bytes} {fault : FrameFault}
    (excessive : Excessive depth header fault) (more : Bytes) :
    readNested (maxDepth - depth) (header ++ more) = .malformed fault := by
  cases excessive with
  | long numeral beyond =>
    rw [readNested_line _ (by decide) (unbroken_of_numeral numeral)]
    change readBulk _ more = _
    simp only [readBulk, announced_of_beyond numeral beyond]
  | many numeral beyond =>
    rw [readNested_line _ (by decide) (unbroken_of_numeral numeral)]
    change readArray _ _ more = _
    simp only [readArray, announced_of_beyond numeral beyond]
  | @deep digits number numeral some =>
    rw [Nat.sub_self, readNested_line _ (by decide) (unbroken_of_numeral numeral)]
    change readArray none digits more = _
    rcases Nat.lt_or_ge maxArrayLength number with beyond | few
    · simp only [readArray, announced_of_beyond numeral beyond]
    · have denotes := (denotes_iff (Nat.le_trans few (by decide))).mpr numeral
      obtain ⟨fewer, rfl⟩ := Nat.exists_eq_add_one_of_ne_zero (Nat.ne_zero_of_lt some)
      simp only [readArray, announced_length_iff.mpr ⟨denotes, few⟩]

private theorem Excessive.unended {header : Bytes} {fault : FrameFault}
    (excessive : Excessive depth header fault) :
    ∃ unended, header = unended ++ [Bytes.lineFeed] ∧
      ∀ levels, Value.readNested levels unended = .incomplete := by
  have lines : ∀ mark digits (number : Int), mark ≠ Bytes.carriageReturn →
      Decimal.Numeral digits number →
      ∃ unended, line mark digits = unended ++ [Bytes.lineFeed] ∧
        ∀ levels, Value.readNested levels unended = .incomplete := by
    intro mark digits number differ numeral
    refine ⟨mark :: digits ++ [Bytes.carriageReturn], by simp [line, Bytes.lineEnd], ?_⟩
    intro levels
    have absent : Bytes.carriageReturn ∉ mark :: digits := by
      simp [differ.symm, numeral.carriageReturn_notMem]
    rw [readNested_eq, readFrame, Bytes.splitLine?_eq_none (Bytes.not_lineEnd_infix_concat absent)]
  cases excessive with
  | long numeral => exact lines _ _ _ (by decide) numeral
  | many numeral => exact lines _ _ _ (by decide) numeral
  | deep numeral => exact lines _ _ _ (by decide) numeral

end

/-- The arrays and bulk strings of a value that is read are within their limits. Arrays that are
not empty nest no deeper than the limit, and all arrays do exactly if no empty one stands at the
depth where no elements may stand. A buffer with a header in it that breaks a limit is refused,
whatever follows the header, and as long as that header is not complete nothing is decided. -/
theorem limits_are_enforced (buffer : Bytes) :
    (∀ value rest, read buffer = .value value rest →
      (∀ depth elements, Occurs depth (.array elements) value →
        elements.length ≤ maxArrayLength ∧ (elements ≠ [] → depth < maxDepth)) ∧
      (∀ depth content, Occurs depth (.bulk content) value → content.length ≤ maxBulkLength) ∧
      value.nesting ≤ maxDepth + 1 ∧
      (value.nesting ≤ maxDepth ↔ ¬ Occurs maxDepth (.array []) value)) ∧
    ∀ depth front header fault, Opening depth front → Excessive depth header fault →
      (front ++ header <+: buffer → read buffer = .malformed fault) ∧
        (buffer <+: front ++ header → buffer ≠ front ++ header → read buffer = .incomplete) := by
  refine ⟨?_, ?_⟩
  · intro value rest found
    have formed := readNested_wellFormed found
    exact ⟨fun _ _ => formed.admitted, fun _ _ => formed.admitted, nesting_cases formed⟩
  · intro depth front header fault opening excessive
    refine ⟨?_, ?_⟩
    · intro begins
      obtain ⟨more, whole⟩ := begins
      have refused := excessive.readNested more
      rw [← whole, List.append_assoc, opening.read_eq (by simp [refused]), refused]
    · intro before shorter
      obtain ⟨unended, rfl, waits⟩ := excessive.unended
      rw [← List.append_assoc] at before shorter
      have undecided : read (front ++ unended) = .incomplete := by
        rw [opening.read_eq (by simp [waits]), waits]
      rcases List.prefix_concat_iff.mp before with whole | inside
      · exact absurd whole shorter
      · exact read_stable.incomplete_of_prefix inside undecided

private theorem opening_replicate {depth : Nat} (within : depth ≤ maxDepth) :
    Opening depth (List.replicate depth (line arrayMark [Decimal.digitByte 1])).flatten := by
  induction depth with
  | zero => exact .outermost
  | succ depth ih =>
    have numeral : Decimal.Numeral [Decimal.digitByte 1] (1 : Nat) := .plain (.last (by decide))
    have inner := @Opening.inside depth _ _ 1 [] (ih (Nat.le_of_succ_le within)) within numeral
      (by decide) (by simp) (by decide)
    rw [List.replicate_succ', List.flatten_concat]
    simpa using inner

/-- Behind as many headers as may stand within one another, the header of one more array is
refused once its line is complete, though no element has arrived; a bulk string is not. -/
theorem filled_array_is_refused_at_limit :
    let front := (List.replicate maxDepth (Bytes.ofText "*1\r\n")).flatten
    let value := Nat.repeat (fun inner => .array [inner]) maxDepth (.bulk [0x61])
    Opening maxDepth front ∧ Excessive maxDepth (Bytes.ofText "*1\r\n") .invalidArray ∧
      read (front ++ Bytes.ofText "*1\r\n") = .malformed .invalidArray ∧
      read (front ++ Bytes.ofText "*1\r") = .incomplete ∧
      read (front ++ Bytes.ofText "$1\r\na\r\n") = .value value [] ∧ value.nesting ≤ maxDepth + 1 := by
  intro front value
  have header : Bytes.ofText "*1\r\n" = line arrayMark [Decimal.digitByte 1] := by decide +kernel
  have opening : Opening maxDepth front := by
    change Opening maxDepth (List.replicate maxDepth (Bytes.ofText "*1\r\n")).flatten
    rw [header]
    exact opening_replicate (Nat.le_refl maxDepth)
  have excessive : Excessive maxDepth (Bytes.ofText "*1\r\n") .invalidArray := by
    rw [header]
    exact .deep (.plain (.last (by decide))) Nat.one_pos
  have found : read (front ++ Bytes.ofText "$1\r\na\r\n") = .value value [] := by decide +kernel
  obtain ⟨arrays, bulks, nested, exact⟩ := (limits_are_enforced _).1 value [] found
  refine ⟨opening, excessive, ?_, ?_, found, nested⟩
  · exact ((limits_are_enforced _).2 _ front _ _ opening excessive).1 List.prefix_rfl
  · apply ((limits_are_enforced _).2 _ front _ _ opening excessive).2
    · exact (List.prefix_append_right_inj front).mpr (by decide +kernel)
    · intro same
      exact absurd (List.append_cancel_left same) (by decide +kernel)

/-- As many arrays as may nest, and an empty one within them: the value that is read nests one
level deeper than the limit. -/
theorem empty_array_nests_beyond_limit :
    let buffer := (List.replicate maxDepth (Bytes.ofText "*1\r\n")).flatten ++ Bytes.ofText "*0\r\n"
    let value := Nat.repeat (fun inner => .array [inner]) maxDepth (.array [])
    read buffer = .value value [] ∧ maxDepth < value.nesting := by
  decide +kernel

end Value

end RespKeyspace
