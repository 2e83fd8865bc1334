import RespKeyspace.Snapshot

/-! Bytes that arrive later change nothing about what a reader has decided. A
reader that restarts from the front of a growing buffer therefore gives, at the
moment its last byte is there, what it would give of the whole stream. -/

namespace RespKeyspace

section

variable {Fault Content : Type}

/-- A reader whose decisions stand whatever follows, and whose values come off the
front of the buffer. -/
structure Stable (examine : Bytes → Reading Fault Content) : Prop where
  value : ∀ {bytes rest value}, examine bytes = .value value rest →
    ∀ more, examine (bytes ++ more) = .value value (rest ++ more)
  malformed : ∀ {bytes fault}, examine bytes = .malformed fault →
    ∀ more, examine (bytes ++ more) = .malformed fault
  suffix : ∀ {bytes rest value}, examine bytes = .value value rest → rest <:+ bytes

namespace Bytes

private theorem splitLine?_append_right {bytes line rest : Bytes}
    (split : splitLine? bytes = some (line, rest)) (more : Bytes) :
    splitLine? (bytes ++ more) = some (line, rest ++ more) := by
  obtain ⟨same, within⟩ := splitLine?_eq_some_iff.mp split
  refine splitLine?_eq_some_iff.mpr ⟨?_, within⟩
  rw [same]
  simp

private theorem splitCount?_append_right {bytes front rest : Bytes} {count : Nat}
    (split : splitCount? count bytes = some (front, rest)) (more : Bytes) :
    splitCount? count (bytes ++ more) = some (front, rest ++ more) := by
  obtain ⟨same, length⟩ := splitCount?_eq_some_iff.mp split
  refine splitCount?_eq_some_iff.mpr ⟨?_, length⟩
  rw [same]
  simp

end Bytes

theorem stable_of_settled {examine : Bytes → Reading Fault Content}
    (settled : (∃ value, ∀ rest, examine rest = .value value rest) ∨
      ∃ fault, ∀ rest, examine rest = .malformed fault) : Stable examine := by
  rcases settled with ⟨value, gives⟩ | ⟨fault, refuses⟩
  · constructor
    · intro bytes rest other found more
      rw [gives] at found ⊢
      cases found
      rfl
    · intro bytes fault found
      simp [gives] at found
    · intro bytes rest other found
      rw [gives] at found
      cases found
      exact List.suffix_refl _
  · constructor
    · intro bytes rest value found
      simp [refuses] at found
    · intro bytes other found more
      rw [refuses] at found ⊢
      exact found
    · intro bytes rest value found
      simp [refuses] at found

theorem stable_ite {condition : Prop} [Decidable condition]
    {first second : Bytes → Reading Fault Content} (left : Stable first) (right : Stable second) :
    Stable fun rest => if condition then first rest else second rest := by
  by_cases holds : condition
  · simpa [holds] using left
  · simpa [holds] using right

/-- A reader that splits off a line and hands the rest on is as stable as what it
hands the rest to. -/
theorem stable_of_line {examine : Bytes → Reading Fault Content}
    {behind : Bytes → Bytes → Reading Fault Content} (stable : ∀ line, Stable (behind line))
    (waits : ∀ bytes, Bytes.splitLine? bytes = none → examine bytes = .incomplete)
    (hands : ∀ bytes line rest, Bytes.splitLine? bytes = some (line, rest) →
      examine bytes = behind line rest) : Stable examine := by
  constructor
  · intro bytes rest value found more
    cases split : Bytes.splitLine? bytes with
    | none => simp [waits bytes split] at found
    | some parts =>
      obtain ⟨line, later⟩ := parts
      rw [hands bytes line later split] at found
      rw [hands _ line _ (Bytes.splitLine?_append_right split more)]
      exact (stable line).value found more
  · intro bytes fault found more
    cases split : Bytes.splitLine? bytes with
    | none => simp [waits bytes split] at found
    | some parts =>
      obtain ⟨line, later⟩ := parts
      rw [hands bytes line later split] at found
      rw [hands _ line _ (Bytes.splitLine?_append_right split more)]
      exact (stable line).malformed found more
  · intro bytes rest value found
    cases split : Bytes.splitLine? bytes with
    | none => simp [waits bytes split] at found
    | some parts =>
      obtain ⟨line, later⟩ := parts
      rw [hands bytes line later split] at found
      refine ((stable line).suffix found).trans ?_
      rw [Bytes.splitLine?_append split]
      exact List.suffix_append _ _

/-- As long as a buffer decides nothing, none of its beginnings did. -/
theorem Stable.incomplete_of_prefix {examine : Bytes → Reading Fault Content} {part whole : Bytes}
    (stable : Stable examine) (before : part <+: whole) (undecided : examine whole = .incomplete) :
    examine part = .incomplete := by
  obtain ⟨more, rfl⟩ := before
  cases found : examine part with
  | incomplete => rfl
  | value value rest => simp [stable.value found more] at undecided
  | malformed fault => simp [stable.malformed found more] at undecided

theorem Stable.incomplete_of_shorter {examine : Bytes → Reading Fault Content} {part whole : Bytes}
    {value : Content} (stable : Stable examine) (before : part <+: whole) (shorter : part ≠ whole)
    (sole : examine whole = .value value []) : examine part = .incomplete := by
  obtain ⟨more, rfl⟩ := before
  cases found : examine part with
  | incomplete => rfl
  | value other rest =>
    have left := stable.value found more
    rw [sole] at left
    simp only [Reading.value.injEq, List.nil_eq, List.append_eq_nil_iff] at left
    exact absurd (by simp [left.2.2]) shorter
  | malformed fault => simp [stable.malformed found more] at sole

end

namespace Value

theorem readText_stable (make : String → Value) (content : Bytes) :
    Stable (readText make content) := by
  apply stable_of_settled
  unfold readText
  cases Utf8.decode? content with
  | none => exact .inr ⟨_, fun _ => rfl⟩
  | some text => exact .inl ⟨_, fun _ => rfl⟩

theorem readInteger_stable (content : Bytes) : Stable (readInteger content) := by
  apply stable_of_settled
  unfold readInteger
  cases Decimal.signed? content with
  | none => exact .inr ⟨_, fun _ => rfl⟩
  | some number => exact .inl ⟨_, fun _ => rfl⟩

/-- The content of a bulk string behind its header, once `count` is announced. -/
def readContent (count : Nat) (rest : Bytes) : Reading FrameFault Value :=
  match Bytes.splitCount? count rest with
  | some (content, first :: second :: behind) =>
    if first = Bytes.carriageReturn ∧ second = Bytes.lineFeed then .value (.bulk content) behind
    else .malformed .invalidBulk
  | _ => .incomplete

theorem readContent_eq {count : Nat} {bytes content behind : Bytes} {first second : UInt8}
    (split : Bytes.splitCount? count bytes = some (content, first :: second :: behind)) :
    readContent count bytes =
      if first = Bytes.carriageReturn ∧ second = Bytes.lineFeed then .value (.bulk content) behind
      else .malformed .invalidBulk := by
  simp [readContent, split]

theorem splitCount?_of_readContent {count : Nat} {bytes : Bytes}
    (decided : readContent count bytes ≠ .incomplete) :
    ∃ content first second behind,
      Bytes.splitCount? count bytes = some (content, first :: second :: behind) := by
  unfold readContent at decided
  split at decided
  · exact ⟨_, _, _, _, ‹_›⟩
  · exact (decided rfl).elim

private theorem readContent_append {count : Nat} {bytes more : Bytes}
    (decided : readContent count bytes ≠ .incomplete) :
    readContent count (bytes ++ more) =
      match readContent count bytes with
      | .value value rest => .value value (rest ++ more)
      | other => other := by
  obtain ⟨content, first, second, behind, split⟩ := splitCount?_of_readContent decided
  rw [readContent_eq split, readContent_eq (Bytes.splitCount?_append_right split more)]
  split <;> rfl

theorem readContent_stable (count : Nat) : Stable (readContent count) := by
  constructor
  · intro bytes rest value found more
    rw [readContent_append (by simp [found]), found]
  · intro bytes fault found more
    rw [readContent_append (by simp [found]), found]
  · intro bytes rest value found
    obtain ⟨content, first, second, behind, split⟩ :=
      splitCount?_of_readContent (by simp [found] : readContent count bytes ≠ .incomplete)
    rw [readContent_eq split] at found
    split at found
    · cases found
      rw [(Bytes.splitCount?_append split).1]
      exact ⟨content ++ [first, second], by simp⟩
    · cases found

theorem readBulk_stable (content : Bytes) : Stable (readBulk content) := by
  cases announcement : announced maxBulkLength content with
  | absent => exact stable_of_settled (.inl ⟨.null, fun rest => by simp [readBulk, announcement]⟩)
  | refused =>
    exact stable_of_settled (.inr ⟨.invalidBulk, fun rest => by simp [readBulk, announcement]⟩)
  | length count =>
    have same : readBulk content = readContent count := by
      funext rest
      simp only [readBulk, announcement]
      rfl
    rw [same]
    exact readContent_stable count

theorem readElements_stable {element : Bytes → Reading FrameFault Value} (stable : Stable element)
    (count : Nat) (done : List Value) : Stable (readElements element count done) := by
  induction count generalizing done with
  | zero => exact stable_of_settled (.inl ⟨_, fun rest => rfl⟩)
  | succ count ih =>
    constructor
    · intro bytes rest value found more
      rw [readElements] at found ⊢
      cases head : element bytes with
      | value first behind =>
        rw [head] at found
        rw [stable.value head more]
        exact (ih (first :: done)).value found more
      | incomplete => simp [head] at found
      | malformed fault => simp [head] at found
    · intro bytes fault found more
      rw [readElements] at found ⊢
      cases head : element bytes with
      | value first behind =>
        rw [head] at found
        rw [stable.value head more]
        exact (ih (first :: done)).malformed found more
      | incomplete => simp [head] at found
      | malformed earlier =>
        rw [head] at found
        rw [stable.malformed head more]
        exact found
    · intro bytes rest value found
      rw [readElements] at found
      cases head : element bytes with
      | value first behind =>
        rw [head] at found
        exact ((ih (first :: done)).suffix found).trans (stable.suffix head)
      | incomplete => simp [head] at found
      | malformed fault => simp [head] at found

theorem readArray_stable {element? : Option (Bytes → Reading FrameFault Value)}
    (stable : ∀ element, element? = some element → Stable element) (content : Bytes) :
    Stable (readArray element? content) := by
  cases announcement : announced maxArrayLength content with
  | absent => exact stable_of_settled (.inl ⟨.null, fun rest => by simp [readArray, announcement]⟩)
  | refused =>
    exact stable_of_settled (.inr ⟨.invalidArray, fun rest => by simp [readArray, announcement]⟩)
  | length count =>
    cases count with
    | zero =>
      exact stable_of_settled (.inl ⟨.array [], fun rest => by simp [readArray, announcement]⟩)
    | succ count =>
      cases element? with
      | none =>
        exact stable_of_settled (.inr ⟨.invalidArray, fun rest => by simp [readArray, announcement]⟩)
      | some element =>
        have same : readArray (some element) content = readElements element (count + 1) [] := by
          funext rest
          simp [readArray, announcement]
        rw [same]
        exact readElements_stable (stable element rfl) _ _

/-- The reader of what follows a first line: an empty line is refused, and otherwise
the mark at its front selects the reader. -/
def readBehind (element? : Option (Bytes → Reading FrameFault Value)) :
    Bytes → Bytes → Reading FrameFault Value
  | [], _ => .malformed (.unknownType Bytes.carriageReturn)
  | mark :: content, rest =>
    if mark = simpleMark then readText .simple content rest
    else if mark = errorMark then readText .error content rest
    else if mark = integerMark then readInteger content rest
    else if mark = bulkMark then readBulk content rest
    else if mark = arrayMark then readArray element? content rest
    else .malformed (.unknownType mark)

theorem readFrame_of_splitLine? {bytes line rest : Bytes}
    (element? : Option (Bytes → Reading FrameFault Value))
    (split : Bytes.splitLine? bytes = some (line, rest)) :
    readFrame element? bytes = readBehind element? line rest := by
  cases line <;> simp [readFrame, readBehind, split]

theorem readBehind_stable {element? : Option (Bytes → Reading FrameFault Value)}
    (stable : ∀ element, element? = some element → Stable element) (line : Bytes) :
    Stable (readBehind element? line) := by
  cases line with
  | nil => exact stable_of_settled (.inr ⟨_, fun rest => rfl⟩)
  | cons mark content =>
    exact stable_ite (readText_stable .simple content) <|
      stable_ite (readText_stable .error content) <|
      stable_ite (readInteger_stable content) <|
      stable_ite (readBulk_stable content) <|
      stable_ite (readArray_stable stable content) <|
      stable_of_settled (.inr ⟨_, fun rest => rfl⟩)

theorem readFrame_stable {element? : Option (Bytes → Reading FrameFault Value)}
    (stable : ∀ element, element? = some element → Stable element) :
    Stable (readFrame element?) :=
  stable_of_line (readBehind_stable stable) (fun bytes split => by simp [readFrame, split])
    (fun _ _ _ => readFrame_of_splitLine? element?)

theorem readNested_stable (levels : Nat) : Stable (readNested levels) := by
  induction levels with
  | zero => exact readFrame_stable (by simp)
  | succ levels ih =>
    refine readFrame_stable ?_
    intro element same
    cases same
    exact ih

theorem read_stable : Stable read := readNested_stable maxDepth

end Value

namespace Snapshot

def readPayload (count : Nat) (rest : Bytes) : Reading Fault Bytes :=
  match Bytes.splitCount? count rest with
  | none => .incomplete
  | some (payload, behind) => .value payload behind

def readBehind : Bytes → Bytes → Reading Fault Bytes
  | [], _ => .malformed .invalidHeader
  | mark :: content, rest =>
    if mark = Value.bulkMark then
      match Decimal.unsigned? Value.maxBulkLength content with
      | none => .malformed .invalidHeader
      | some count => readPayload count rest
    else .malformed .invalidHeader

theorem read_of_splitLine? {bytes line rest : Bytes}
    (split : Bytes.splitLine? bytes = some (line, rest)) : read bytes = readBehind line rest := by
  cases line with
  | nil => simp only [read, readBehind, split]
  | cons mark content =>
    simp only [read, readBehind, split]
    rfl

theorem readPayload_stable (count : Nat) : Stable (readPayload count) := by
  unfold readPayload
  constructor
  · intro bytes rest payload found more
    cases split : Bytes.splitCount? count bytes with
    | none => simp [split] at found
    | some parts =>
      simp only [split, Reading.value.injEq] at found
      simp [Bytes.splitCount?_append_right split more, found.1, found.2]
  · intro bytes fault found
    cases split : Bytes.splitCount? count bytes <;> simp [split] at found
  · intro bytes rest payload found
    cases split : Bytes.splitCount? count bytes with
    | none => simp [split] at found
    | some parts =>
      simp only [split, Reading.value.injEq] at found
      rw [(Bytes.splitCount?_append split).1, found.2]
      exact List.suffix_append _ _

theorem read_stable : Stable read := by
  refine stable_of_line ?_ (fun bytes split => by simp [read, split])
    (fun _ _ _ => read_of_splitLine?)
  intro line
  cases line with
  | nil => exact stable_of_settled (.inr ⟨_, fun rest => rfl⟩)
  | cons mark content =>
    refine stable_ite ?_ (stable_of_settled (.inr ⟨_, fun rest => rfl⟩))
    cases Decimal.unsigned? Value.maxBulkLength content with
    | none => exact stable_of_settled (.inr ⟨_, fun rest => rfl⟩)
    | some count => exact readPayload_stable count

end Snapshot

end RespKeyspace
