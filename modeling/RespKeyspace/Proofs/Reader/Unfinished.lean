import Mathlib.Data.List.Infix
import RespKeyspace.Proofs.Reader.Limits

/-! The undecided part of a buffer: a line that has not ended, or a bulk string that lacks bytes. Some
of these parts are promising, in that a frame begins so, and a frame can be completed around them. -/

namespace RespKeyspace

namespace Bytes

private theorem not_infix_of_splitLineAfter_eq_none {taken bytes : Bytes}
    (none : splitLineAfter taken bytes = none) : ¬ lineEnd <:+: bytes := by
  induction bytes generalizing taken with
  | nil => simp [lineEnd]
  | cons first tail ih =>
    cases tail with
    | nil => exact not_lineEnd_infix_singleton first
    | cons second rest =>
      rw [splitLineAfter] at none
      split at none
      · cases none
      · rename_i differ
        rw [lineEnd_infix_cons_cons]
        exact not_or.mpr ⟨differ, ih none⟩

private theorem splitLine?_eq_none_iff {bytes : Bytes} :
    splitLine? bytes = none ↔ ¬ lineEnd <:+: bytes :=
  ⟨not_infix_of_splitLineAfter_eq_none, splitLine?_eq_none⟩

end Bytes

namespace Value

/-- The lines with which the frames that may stand at a depth begin. -/
inductive Leads : Nat → Bytes → Prop where
  | simple {depth text} (unbroken : ¬ Bytes.lineEnd <:+: Bytes.ofText text) :
      Leads depth (line simpleMark (Bytes.ofText text))
  | error {depth text} (unbroken : ¬ Bytes.lineEnd <:+: Bytes.ofText text) :
      Leads depth (line errorMark (Bytes.ofText text))
  | integer {depth digits} {number : Int64} (numeral : Decimal.Numeral digits number.toInt) :
      Leads depth (line integerMark digits)
  | bulk {depth digits count} (numeral : Decimal.Numeral digits (count : Nat))
      (short : count ≤ maxBulkLength) : Leads depth (line bulkMark digits)
  | array {depth digits count} (numeral : Decimal.Numeral digits (count : Nat))
      (few : count ≤ maxArrayLength) (above : count = 0 ∨ depth < maxDepth) :
      Leads depth (line arrayMark digits)
  | null {depth mark digits} (header : mark = bulkMark ∨ mark = arrayMark)
      (numeral : Decimal.Numeral digits (-1)) : Leads depth (line mark digits)

/-- Bytes at the place of a value that decide nothing: a line that has not ended, or a bulk string
that lacks some of its content or of the line end behind it. -/
inductive Unfinished : Bytes → Prop where
  | line {part} (unended : ¬ Bytes.lineEnd <:+: part) : Unfinished part
  | bulk {digits content count} (numeral : Decimal.Numeral digits (count : Nat))
      (short : count ≤ maxBulkLength) (lacks : content.length < count + Bytes.lineEnd.length) :
      Unfinished (line bulkMark digits ++ content)

/-- Such bytes as far as a frame may come of them at a depth: the beginning of a line that leads a
frame, or a bulk string behind whose content nothing but its line end begins. -/
inductive Promising (depth : Nat) : Bytes → Prop where
  | line {part opening} (leads : Leads depth opening) (begins : part <+: opening)
      (shorter : part ≠ opening) : Promising depth part
  | bulk {digits content count} (numeral : Decimal.Numeral digits (count : Nat))
      (short : count ≤ maxBulkLength) (lacks : content.length < count + Bytes.lineEnd.length)
      (fits : content.drop count <+: Bytes.lineEnd) :
      Promising depth (Value.line bulkMark digits ++ content)

section

variable {depth levels count : Nat} {opening form bytes part front rest later content : Bytes}
  {mark : UInt8} {value : Value}

theorem Framed.leads (framed : Framed .enforced depth form value) :
    ∃ opening body, Leads depth opening ∧ form = opening ++ body := by
  cases framed with
  | simple unbroken => exact ⟨_, [], .simple unbroken, (List.append_nil _).symm⟩
  | error unbroken => exact ⟨_, [], .error unbroken, (List.append_nil _).symm⟩
  | integer numeral => exact ⟨_, [], .integer numeral, (List.append_nil _).symm⟩
  | bulk numeral short => exact ⟨_, _, .bulk numeral short, List.append_assoc _ _ _⟩
  | null header numeral => exact ⟨_, [], .null header numeral, (List.append_nil _).symm⟩
  | array numeral few above each =>
    exact ⟨_, _, .array numeral few (above.imp_left (congrArg List.length)), rfl⟩

/-- The frame of null that stands in for any element. -/
def nullForm : Bytes := line bulkMark [0x2D, Decimal.digitByte 1]

private theorem framed_nullForm : Framed .enforced depth nullForm .null :=
  .null (.inl rfl) (.minus (.last (by decide)))

theorem Leads.framed (leads : Leads depth opening) :
    ∃ form value, Framed .enforced depth form value ∧ opening <+: form := by
  cases leads with
  | simple unbroken => exact ⟨_, _, .simple unbroken, List.prefix_rfl⟩
  | error unbroken => exact ⟨_, _, .error unbroken, List.prefix_rfl⟩
  | integer numeral => exact ⟨_, _, .integer numeral, List.prefix_rfl⟩
  | null header numeral => exact ⟨_, _, .null header numeral, List.prefix_rfl⟩
  | @bulk digits count numeral short =>
    let content : Bytes := List.replicate count 0
    have length : content.length = count := List.length_replicate
    rw [← length] at numeral short
    refine ⟨_, _, .bulk numeral short, ?_⟩
    rw [List.append_assoc]
    exact List.prefix_append _ _
  | @array digits count numeral few above =>
    let parts := List.replicate count (Value.null, nullForm)
    have length : parts.length = count := List.length_replicate
    have each : ∀ part ∈ parts, Framed .enforced (depth + 1) part.2 part.1 := by
      intro part member
      rw [List.eq_of_mem_replicate member]
      exact framed_nullForm
    rw [← length] at numeral few above
    exact ⟨_, _, .array numeral few (above.imp_left List.eq_nil_of_length_eq_zero) each,
      List.prefix_append _ _⟩

theorem Leads.lineEnd (leads : Leads depth opening) : Bytes.lineEnd <:+: opening := by
  cases leads <;> exact (List.suffix_append _ _).isInfix

private theorem announced_cases {limit : Nat} (small : limit ≤ Decimal.maxSigned)
    (accepted : announced limit content ≠ .refused) :
    Decimal.Numeral content (-1) ∨
      ∃ count : Nat, announced limit content = .length count ∧ Decimal.Numeral content count ∧
        count ≤ limit := by
  cases announcement : announced limit content with
  | refused => exact absurd announcement accepted
  | absent => exact .inl (Decimal.signed?_eq_some_iff.mp (announced_absent_iff.mp announcement))
  | length count =>
    obtain ⟨denotes, within⟩ := announced_length_iff.mp announcement
    exact .inr ⟨count, rfl, (denotes_iff (Nat.le_trans within small)).mp denotes, within⟩

/-- A first line that leads no frame is refused, whatever follows it. -/
theorem leads_of_not_malformed (unbroken : ¬ Bytes.lineEnd <:+: mark :: content)
    (accepted : ∀ fault, readNested (maxDepth - depth) (line mark content ++ later) ≠
      .malformed fault) : Leads depth (line mark content) := by
  have split : Bytes.splitLine? (line mark content ++ later) = some (mark :: content, later) :=
    Bytes.splitLine?_eq_some_iff.mpr ⟨rfl, unbroken⟩
  have whole : ¬ Bytes.lineEnd <:+: content := fun inside =>
    unbroken (inside.trans (List.suffix_cons mark content).isInfix)
  have readable : ∀ make, (∀ fault, readText make content later ≠ .malformed fault) →
      ∃ text, content = Bytes.ofText text := by
    intro make accepted
    unfold readText at accepted
    split at accepted
    · rename_i text read
      exact ⟨text, Utf8.decode?_eq_some_iff.mp read⟩
    · exact absurd rfl (accepted _)
  rw [readNested_eq, readFrame_of_splitLine? _ split, readBehind] at accepted
  split at accepted
  · rename_i marked
    obtain ⟨text, rfl⟩ := readable _ accepted
    exact marked ▸ .simple whole
  split at accepted
  · rename_i marked
    obtain ⟨text, rfl⟩ := readable _ accepted
    exact marked ▸ .error whole
  split at accepted
  · rename_i marked
    unfold readInteger at accepted
    split at accepted
    · rename_i number read
      exact marked ▸ .integer (Decimal.signed?_eq_some_iff.mp read)
    · exact absurd rfl (accepted _)
  split at accepted
  · rename_i marked
    have announces : announced maxBulkLength content ≠ .refused := by
      intro refused
      exact accepted .invalidBulk (by simp only [readBulk, refused])
    rcases announced_cases (by decide) announces with none | ⟨count, _, numeral, short⟩
    · exact .null (.inl marked) none
    · exact marked ▸ .bulk numeral short
  split at accepted
  · rename_i marked
    have announces : announced maxArrayLength content ≠ .refused := by
      intro refused
      exact accepted .invalidArray (by simp only [readArray, refused])
    rcases announced_cases (by decide) announces with none | ⟨count, announcement, numeral, few⟩
    · exact .null (.inr marked) none
    · refine marked ▸ .array numeral few ?_
      cases count with
      | zero => exact .inl rfl
      | succ fewer =>
        refine .inr (Nat.lt_of_not_le fun deep => ?_)
        rw [Nat.sub_eq_zero_of_le deep] at accepted
        exact accepted .invalidArray (by simp only [elementReader?, readArray, announcement])
  · exact absurd rfl (accepted _)

theorem readNested_of_unended (unended : ¬ Bytes.lineEnd <:+: part) :
    readNested levels part = .incomplete := by
  rw [readNested_eq, readFrame, Bytes.splitLine?_eq_none unended]

private theorem readNested_bulk {digits : Bytes} (numeral : Decimal.Numeral digits (count : Nat))
    (short : count ≤ maxBulkLength) :
    readNested levels (line bulkMark digits ++ content) = readContent count content := by
  have denotes := (denotes_iff (Nat.le_trans short (by decide))).mpr numeral
  rw [readNested_line _ (by decide) denotes.whole]
  change readBulk digits content = _
  simp only [readBulk, announced_length_iff.mpr ⟨denotes, short⟩]
  rfl

theorem Unfinished.readNested (unfinished : Unfinished part) :
    readNested levels part = .incomplete := by
  cases unfinished with
  | line unended => exact readNested_of_unended unended
  | bulk numeral short lacks =>
    rw [readNested_bulk numeral short]
    exact readContent_eq_incomplete_iff.mpr lacks

theorem Opening.read_unfinished (opened : Opening depth front) (unfinished : Unfinished part) :
    read (front ++ part) = .incomplete := by
  have undecided : Value.readNested (maxDepth - depth) part = .incomplete := unfinished.readNested
  rw [opened.read_eq (by simp [undecided]), undecided]

private theorem exists_parts_of_undecided {done : List Value}
    (undecided : readElements (readNested levels) count done bytes = .incomplete) :
    ∃ (parts : List (Value × Bytes)) (rest : Bytes), bytes = parts.flatMap Prod.snd ++ rest ∧
      parts.length < count ∧ (∀ part ∈ parts, Spelling levels part.1 part.2) ∧
      readNested levels rest = .incomplete := by
  induction count generalizing done bytes with
  | zero => cases undecided
  | succ count ih =>
    rw [readElements] at undecided
    split at undecided
    · rename_i first behind read
      obtain ⟨form, spelled, rfl⟩ := (takesForms levels _ _ _).mp read
      obtain ⟨parts, rest, rfl, fewer, each, last⟩ := ih undecided
      refine ⟨(first, form) :: parts, rest, by simp, Nat.succ_lt_succ fewer, ?_, last⟩
      exact List.forall_mem_cons.mpr ⟨spelled, each⟩
    · rename_i here
      exact ⟨[], bytes, by simp, Nat.succ_pos count, by simp, here⟩
    · cases undecided

/-- Where a line leads a frame and nothing is decided behind it, a bulk string lacks bytes, or an
array lacks an element of which nothing is decided in turn. -/
theorem Opening.undecided_behind (opened : Opening depth front) (leads : Leads depth opening)
    (undecided : readNested (maxDepth - depth) (opening ++ later) = .incomplete) :
    Unfinished (opening ++ later) ∨
      ∃ inner rest, depth < maxDepth ∧ Opening (depth + 1) inner ∧
        front ++ (opening ++ later) = inner ++ rest ∧
        readNested (maxDepth - (depth + 1)) rest = .incomplete := by
  have decided : ∀ {form value}, Framed .enforced depth form value →
      readNested (maxDepth - depth) (form ++ later) ≠ .incomplete := by
    intro form value framed
    simp [readNested_of_framed framed]
  cases leads with
  | simple unbroken => exact absurd undecided (decided (.simple unbroken))
  | error unbroken => exact absurd undecided (decided (.error unbroken))
  | integer numeral => exact absurd undecided (decided (.integer numeral))
  | null header numeral => exact absurd undecided (decided (.null header numeral))
  | bulk numeral short =>
    rw [readNested_bulk numeral short] at undecided
    exact .inl (.bulk numeral short (readContent_eq_incomplete_iff.mp undecided))
  | @array digits count numeral few above =>
    have denotes := (denotes_iff (Nat.le_trans few (by decide))).mpr numeral
    have announcement := announced_length_iff.mpr ⟨denotes, few⟩
    rw [readNested_line _ (by decide) denotes.whole] at undecided
    change readArray (elementReader? (maxDepth - depth)) digits later = .incomplete at undecided
    cases count with
    | zero => simp only [readArray, announcement, reduceCtorEq] at undecided
    | succ fewer =>
      have within : depth < maxDepth := above.resolve_left (Nat.succ_ne_zero fewer)
      have deeper : maxDepth - depth = maxDepth - (depth + 1) + 1 := by omega
      rw [deeper] at undecided
      simp only [elementReader?, readArray, announcement] at undecided
      obtain ⟨parts, rest, rfl, missing, each, last⟩ := exists_parts_of_undecided undecided
      have framed : ∀ part ∈ parts, Framed .enforced (depth + 1) part.2 part.1 :=
        fun part member => (each part member).framed (by omega)
      exact .inr ⟨_, rest, within, .inside opened within numeral few framed missing, by simp, last⟩

/-- Where nothing is decided, no line has ended, or the first one leads a frame. -/
theorem unended_or_leads (undecided : readNested (maxDepth - depth) bytes = .incomplete) :
    ¬ Bytes.lineEnd <:+: bytes ∨ ∃ opening later, Leads depth opening ∧ bytes = opening ++ later := by
  cases split : Bytes.splitLine? bytes with
  | none => exact .inl (Bytes.splitLine?_eq_none_iff.mp split)
  | some parts =>
    obtain ⟨head, later⟩ := parts
    obtain ⟨rfl, unbroken⟩ := Bytes.splitLine?_eq_some_iff.mp split
    cases head with
    | nil =>
      rw [readNested_eq, readFrame_of_splitLine? _ split] at undecided
      cases undecided
    | cons mark content =>
      change readNested _ (line mark content ++ later) = .incomplete at undecided
      have accepted : ∀ fault,
          readNested (maxDepth - depth) (line mark content ++ later) ≠ .malformed fault := by
        intro fault refused
        rw [undecided] at refused
        cases refused
      exact .inr ⟨_, later, leads_of_not_malformed unbroken accepted, rfl⟩

/-- Bytes of which nothing is decided end, behind what is complete in them, in an unfinished part. -/
theorem Opening.exists_unfinished (opened : Opening depth front)
    (undecided : readNested (maxDepth - depth) bytes = .incomplete) :
    ∃ level outer part, Opening level outer ∧ Unfinished part ∧ front ++ bytes = outer ++ part := by
  -- An array that lacks elements leaves fewer levels for the element that is not complete.
  induction above : maxDepth - depth using Nat.strongRecOn generalizing depth front bytes with
  | ind above ih =>
    rcases unended_or_leads undecided with unended | ⟨opening, later, leads, rfl⟩
    · exact ⟨depth, front, bytes, opened, .line unended, rfl⟩
    · rcases opened.undecided_behind leads undecided with
        unfinished | ⟨inner, rest, within, deeper, whole, last⟩
      · exact ⟨depth, front, _, opened, unfinished, rfl⟩
      · rw [whole]
        exact ih _ (by omega) deeper last rfl

private theorem Opening.depth_le (opened : Opening depth front) : depth ≤ maxDepth := by
  cases opened with
  | outermost => exact Nat.zero_le _
  | inside _ above => exact above

private theorem begins_of_unended (unended : ¬ Bytes.lineEnd <:+: part) (leads : Leads depth opening)
    (same : part ++ later = opening ++ rest) : part <+: opening ∧ part ≠ opening := by
  refine ⟨?_, ?_⟩
  · rcases List.prefix_or_prefix_of_prefix ⟨_, same⟩ (List.prefix_append opening rest) with
      before | beyond
    · exact before
    · exact absurd (leads.lineEnd.trans beyond.isInfix) unended
  · rintro rfl
    exact unended leads.lineEnd

theorem Unfinished.promising (unfinished : Unfinished part) (within : depth ≤ maxDepth)
    (found : Value.readNested (maxDepth - depth) (part ++ later) = .value value rest) :
    Promising depth part := by
  cases unfinished with
  | line unended =>
    obtain ⟨form, spelled, same⟩ := (takesForms _ _ _ _).mp found
    have framed : Framed .enforced depth form value := spelled.framed (by omega)
    obtain ⟨opening, body, leads, rfl⟩ := framed.leads
    rw [List.append_assoc] at same
    obtain ⟨begins, shorter⟩ := begins_of_unended unended leads same
    exact .line leads begins shorter
  | @bulk digits content count numeral short lacks =>
    rw [List.append_assoc, readNested_bulk numeral short] at found
    obtain ⟨payload, _, rfl, same⟩ := readContent_eq_value_iff.mp found
    have behind : content.drop payload.length <+: Bytes.lineEnd ++ rest := by
      have dropped := List.IsPrefix.drop (List.prefix_append content later) payload.length
      rwa [same, List.append_assoc, List.drop_left] at dropped
    refine .bulk numeral short lacks ?_
    refine List.prefix_of_prefix_length_le behind (List.prefix_append _ _) ?_
    rw [List.length_drop]
    omega

theorem Promising.framed (promising : Promising depth part) :
    ∃ form value, Framed .enforced depth form value ∧ part <+: form ∧ part ≠ form := by
  cases promising with
  | line leads begins shorter =>
    obtain ⟨form, value, framed, leading⟩ := leads.framed
    refine ⟨form, value, framed, begins.trans leading, ?_⟩
    rintro rfl
    exact shorter (begins.eq_of_length (Nat.le_antisymm begins.length_le leading.length_le))
  | @bulk digits content count numeral short lacks fits =>
    let payload : Bytes := content.take count ++ List.replicate (count - content.length) 0
    have length : payload.length = count := by
      simp only [payload, List.length_append, List.length_take, List.length_replicate]
      omega
    have arrived : content <+: payload ++ Bytes.lineEnd := by
      rcases Nat.le_total content.length count with within | beyond
      · simp [payload, List.take_of_length_le within]
      · have apart := (List.prefix_append_right_inj (content.take count)).mpr fits
        simpa [payload, Nat.sub_eq_zero_of_le beyond] using apart
    rw [← length] at numeral short
    refine ⟨_, _, .bulk numeral short, ?_, ?_⟩
    · rw [List.append_assoc]
      exact (List.prefix_append_right_inj _).mpr arrived
    · intro same
      have lengths := congrArg List.length same
      simp only [List.length_append] at lengths
      omega

/-- Around a frame that stands where a value of a request begins, the request can be completed. -/
theorem Opening.complete (opened : Opening depth front) (framed : Framed .enforced depth form value) :
    ∃ whole value, Framed .enforced 0 whole value ∧ front ++ form <+: whole := by
  induction opened generalizing form value with
  | outermost => exact ⟨form, value, framed, List.prefix_rfl⟩
  | @inside depth front digits count parts outer above numeral few each missing ih =>
    let fill := (value, form) :: List.replicate (count - (parts.length + 1)) (Value.null, nullForm)
    have length : (parts ++ fill).length = count := by
      simp only [fill, List.length_append, List.length_cons, List.length_replicate]
      omega
    have filled : ∀ part ∈ parts ++ fill, Framed .enforced (depth + 1) part.2 part.1 := by
      intro part member
      rcases List.mem_append.mp member with done | added
      · exact each part done
      rcases List.mem_cons.mp added with rfl | stand
      · exact framed
      · rw [List.eq_of_mem_replicate stand]
        exact framed_nullForm
    rw [← length] at numeral few
    obtain ⟨whole, outermost, complete, begins⟩ := ih (.array numeral few (.inr above) filled)
    refine ⟨whole, outermost, complete, List.IsPrefix.trans ?_ begins⟩
    rw [List.append_assoc, List.append_assoc, List.prefix_append_right_inj,
      List.prefix_append_right_inj]
    simp [fill]

/-- Behind a part that is not promising nothing is decided as long as its line has not ended, or,
if it is a bulk string, no more bytes have arrived. -/
theorem Unfinished.waits_iff (unfinished : Unfinished part) (dead : ¬ Promising depth part) :
    Value.readNested (maxDepth - depth) (part ++ later) = .incomplete ↔
      later = [] ∨ ¬ Bytes.lineEnd <:+: part ++ later := by
  constructor
  · intro undecided
    rcases unended_or_leads undecided with unended | ⟨opening, behind, leads, same⟩
    · exact .inr unended
    cases unfinished with
    | line unended =>
      obtain ⟨begins, shorter⟩ := begins_of_unended unended leads same
      exact absurd (.line leads begins shorter) dead
    | @bulk digits content count numeral short lacks =>
      rw [List.append_assoc, readNested_bulk numeral short, readContent_eq_incomplete_iff,
        List.length_append] at undecided
      have beyond : count < content.length := by
        by_contra within
        refine dead (.bulk numeral short lacks ?_)
        rw [List.drop_eq_nil_of_le (Nat.le_of_not_lt within)]
        exact List.nil_prefix
      have ends : Bytes.lineEnd.length = 2 := rfl
      exact .inl (List.eq_nil_of_length_eq_zero (by omega))
  · rintro (rfl | unended)
    · rw [List.append_nil]
      exact unfinished.readNested
    · exact readNested_of_unended unended

/-- What is found of a buffer with a part in it that is not promising is never a value. -/
theorem Opening.read_unpromising (opened : Opening depth front) (unfinished : Unfinished part)
    (dead : ¬ Promising depth part) (later : Bytes) :
    (read (front ++ part ++ later) = .incomplete ↔
      later = [] ∨ ¬ Bytes.lineEnd <:+: part ++ later) ∧
    ∀ value rest, read (front ++ part ++ later) ≠ .value value rest := by
  have none : ∀ value rest, Value.readNested (maxDepth - depth) (part ++ later) ≠ .value value rest :=
    fun value rest found => dead (unfinished.promising opened.depth_le found)
  rw [List.append_assoc, opened.read_eq none]
  exact ⟨unfinished.waits_iff dead, none⟩

end

end Value

end RespKeyspace
