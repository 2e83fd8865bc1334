import RespKeyspace.Proofs.Reader.Spelling

/-! Reading by positions in one buffer, with a call of the reader for each element of an array. The
reader takes no bytes but those of the buffer and finds what is read from the position on, and
its calls end by themselves. -/

namespace RespKeyspace

namespace Bytes

/-- The bytes from one position up to another; nothing unless both lie in the buffer, in this order. -/
def slice? (bytes : Bytes) (first last : Nat) : Option Bytes :=
  if first ≤ last ∧ last ≤ bytes.length then some ((bytes.drop first).take (last - first)) else none

/-- The first position at which a line ends, from `start` on. -/
def lineEndFrom? (bytes : Bytes) (start : Nat) : Option Nat :=
  ((bytes.drop start).tails.findIdx? lineEnd.isPrefixOf).map (start + ·)

section

variable {bytes part behind : Bytes} {start : Nat}

private theorem add_length_le_of_drop (within : start ≤ bytes.length)
    (arrived : bytes.drop start = part ++ behind) :
    start + part.length ≤ bytes.length := by
  have lengths := congrArg List.length arrived
  rw [List.length_drop, List.length_append] at lengths
  omega

private theorem slice?_of_drop (within : start ≤ bytes.length)
    (arrived : bytes.drop start = part ++ behind) :
    slice? bytes start (start + part.length) = some part := by
  have inside := add_length_le_of_drop within arrived
  rw [slice?, if_pos ⟨Nat.le_add_right _ _, inside⟩, arrived, Nat.add_sub_cancel_left, List.take_left]

private theorem drop_of_drop (arrived : bytes.drop start = part ++ behind) :
    bytes.drop (start + part.length) = behind := by
  rw [← List.drop_drop, arrived, List.drop_left]

private theorem lineEnd_prefix_cons_cons {first second : UInt8} (rest : Bytes) :
    lineEnd <+: first :: second :: rest ↔ first = carriageReturn ∧ second = lineFeed := by
  rw [lineEnd, List.cons_prefix_cons, List.cons_prefix_cons]
  simp [eq_comm]

private theorem findIdx?_lineEnd (taken bytes : Bytes) :
    (bytes.tails.findIdx? lineEnd.isPrefixOf).map (taken.length + ·) =
      (splitLineAfter taken bytes).map (·.1.length) := by
  induction bytes generalizing taken with
  | nil => rfl
  | cons first tail ih =>
    cases tail with
    | nil => simp [splitLineAfter, lineEnd, List.isPrefixOf]
    | cons second rest =>
      rw [List.tails, List.findIdx?_cons, splitLineAfter]
      by_cases ended : first = carriageReturn ∧ second = lineFeed
      · have begins := (lineEnd_prefix_cons_cons rest).mpr ended
        rw [if_pos (List.isPrefixOf_iff_prefix.mpr begins), if_pos ended]
        simp
      · have apart := mt (lineEnd_prefix_cons_cons rest).mp ended
        rw [if_neg (mt List.isPrefixOf_iff_prefix.mp apart), if_neg ended, ← ih (first :: taken)]
        simp [Function.comp_def, Nat.add_comm, Nat.add_left_comm]

private theorem lineEndFrom?_eq (bytes : Bytes) (start : Nat) :
    lineEndFrom? bytes start = (splitLine? (bytes.drop start)).map (start + ·.1.length) := by
  have ends := findIdx?_lineEnd [] (bytes.drop start)
  simp only [List.length_nil, Nat.zero_add, Option.map_id'] at ends
  rw [lineEndFrom?, ends, splitLine?, Option.map_map]
  rfl

end

end Bytes

namespace Value

/-- What is found at a position: a value and the position behind it, too few bytes, or a fault.
A reader that takes bytes which are not in the buffer breaks off. -/
inductive Found where
  | value (value : Value) (behind : Nat)
  | incomplete
  | malformed (fault : FrameFault)
  | outside
deriving DecidableEq

/-- A reading of what is left of a buffer, told by positions in the whole of it. -/
def Found.ofReading (length : Nat) : Reading FrameFault Value → Found
  | .value taken rest => .value taken (length - rest.length)
  | .incomplete => .incomplete
  | .malformed fault => .malformed fault

/-- What the first line of a frame decides: all of it, or how many elements follow and where. -/
inductive Head where
  | settled (found : Found)
  | elements (count next : Nat)

def textAt (make : String → Value) (content : Bytes) (next : Nat) : Found :=
  match Utf8.decode? content with
  | some text => .value (make text) next
  | none => .malformed .invalidText

def integerAt (content : Bytes) (next : Nat) : Found :=
  match Decimal.signed? content with
  | some number => .value (.integer number) next
  | none => .malformed (if (Utf8.decode? content).isSome then .invalidInteger else .invalidText)

/-- A bulk string whose header ends at `next`. The limit on its length keeps the positions that
are computed here within that limit of the buffer. -/
def bulkAt (buffer content : Bytes) (next : Nat) : Found :=
  match announced maxBulkLength content with
  | .refused => .malformed .invalidBulk
  | .absent => .value .null next
  | .length count =>
    let ending := next + count
    let behind := ending + Bytes.lineEnd.length
    if buffer.length < behind then .incomplete
    else
      match Bytes.slice? buffer ending behind with
      | none => .outside
      | some last =>
        if last = Bytes.lineEnd then
          match Bytes.slice? buffer next ending with
          | none => .outside
          | some payload => .value (.bulk payload) behind
        else .malformed .invalidBulk

def arrayAt (depth : Nat) (content : Bytes) (next : Nat) : Head :=
  match announced maxArrayLength content with
  | .refused => .settled (.malformed .invalidArray)
  | .absent => .settled (.value .null next)
  | .length count =>
    if 0 < count ∧ maxDepth ≤ depth then .settled (.malformed .invalidArray)
    else .elements count next

def markedAt (buffer : Bytes) (depth : Nat) (line : Bytes) (next : Nat) : Head :=
  match line with
  | [] => .settled (.malformed (.unknownType Bytes.carriageReturn))
  | mark :: content =>
    if mark = simpleMark then .settled (textAt .simple content next)
    else if mark = errorMark then .settled (textAt .error content next)
    else if mark = integerMark then .settled (integerAt content next)
    else if mark = bulkMark then .settled (bulkAt buffer content next)
    else if mark = arrayMark then arrayAt depth content next
    else .settled (.malformed (.unknownType mark))

def headAt (buffer : Bytes) (start depth : Nat) : Head :=
  match Bytes.lineEndFrom? buffer start with
  | none => .settled .incomplete
  | some ending =>
    match Bytes.slice? buffer start ending with
    | none => .settled .outside
    | some line => markedAt buffer depth line (ending + Bytes.lineEnd.length)

/-- As many elements as were announced, each by a call, with those before them newest first. -/
def elementsAt (call : Nat → Option Found) : Nat → List Value → Nat → Option Found
  | 0, done, position => some (.value (.array done.reverse) position)
  | count + 1, done, position =>
    match call position with
    | some (.value value behind) => elementsAt call count (value :: done) behind
    | other => other

/-- What a call finds at a position and a depth, given what the calls find that it makes. -/
def frameAt (call : Nat → Nat → Option Found) (buffer : Bytes) (start depth : Nat) : Option Found :=
  match headAt buffer start depth with
  | .settled found => some found
  | .elements count next => elementsAt (fun position => call position (depth + 1)) count [] next

section

variable {call wider : Nat → Nat → Option Found} {start depth : Nat} {found : Found}

/-- All that one call finds, another one finds too. -/
def Extends (call wider : Nat → Nat → Option Found) : Prop :=
  ∀ start depth found, call start depth = some found → wider start depth = some found

theorem elementsAt_extends {count : Nat} {done : List Value} (more : Extends call wider)
    (read : elementsAt (fun position => call position depth) count done start = some found) :
    elementsAt (fun position => wider position depth) count done start = some found := by
  induction count generalizing done start with
  | zero => exact read
  | succ count ih =>
    rw [elementsAt] at read ⊢
    cases first : call start depth with
    | none => simp [first] at read
    | some element =>
      rw [more start depth element first]
      rw [first] at read
      cases element with
      | value value behind => exact ih read
      | incomplete | malformed fault | outside => exact read

theorem frameAt_extends (more : Extends call wider) (buffer : Bytes) :
    Extends (frameAt call buffer) (frameAt wider buffer) := by
  intro start depth found read
  rw [frameAt] at read ⊢
  cases head : headAt buffer start depth with
  | settled settled => simpa [head] using read
  | elements count next =>
    rw [head] at read
    exact elementsAt_extends more read

end

/-- The reader with room for `levels` calls within the outermost one. Where one more would be
made, nothing is found. -/
def readWithin (buffer : Bytes) : Nat → Nat → Nat → Option Found
  | 0 => frameAt (fun _ _ => none) buffer
  | levels + 1 => frameAt (readWithin buffer levels) buffer

/-- A reader whose calls are its own, with nothing to bound them. Nothing is found where they do
not end. -/
def CallsItself (buffer : Bytes) (reader : Nat → Nat → Option Found) : Prop :=
  reader = frameAt reader buffer

section

variable {buffer content line : Bytes} {next position depth levels : Nat}

private theorem ofReading_drop (value : Value) (within : position ≤ buffer.length) :
    Found.ofReading buffer.length (.value value (buffer.drop position)) = .value value position := by
  rw [Found.ofReading, List.length_drop, Nat.sub_sub_self within]

theorem textAt_eq (make : String → Value) (within : next ≤ buffer.length) :
    textAt make content next = .ofReading buffer.length (readText make content (buffer.drop next)) := by
  rw [textAt, readText]
  cases Utf8.decode? content with
  | none => rfl
  | some text => exact (ofReading_drop _ within).symm

theorem integerAt_eq (within : next ≤ buffer.length) :
    integerAt content next = .ofReading buffer.length (readInteger content (buffer.drop next)) := by
  rw [integerAt, readInteger]
  cases Decimal.signed? content with
  | none => rfl
  | some number => exact (ofReading_drop _ within).symm

theorem bulkAt_eq (within : next ≤ buffer.length) :
    bulkAt buffer content next = .ofReading buffer.length (readBulk content (buffer.drop next)) := by
  cases announcement : announced maxBulkLength content with
  | refused => simp only [bulkAt, readBulk, announcement, Found.ofReading]
  | absent => simp only [bulkAt, readBulk, announcement, ofReading_drop _ within]
  | length count =>
    have ends : Bytes.lineEnd.length = 2 := rfl
    have left : (buffer.drop next).length = buffer.length - next := List.length_drop
    have reads : readBulk content (buffer.drop next) = readContent count (buffer.drop next) := by
      simp only [readBulk, announcement]
      rfl
    simp only [bulkAt, announcement, reads]
    rcases Nat.lt_or_ge buffer.length (next + count + Bytes.lineEnd.length) with lacks | enough
    · rw [if_pos lacks, readContent_eq_incomplete_iff.mpr (by omega), Found.ofReading]
    · obtain ⟨payload, first, second, behind, split⟩ :=
        exists_splitCount? (by omega : count + Bytes.lineEnd.length ≤ (buffer.drop next).length)
      obtain ⟨arrived, rfl⟩ := Bytes.splitCount?_append split
      have rest : buffer.drop (next + payload.length) = [first, second] ++ behind :=
        Bytes.drop_of_drop arrived
      have last := Bytes.add_length_le_of_drop within arrived
      have slice : Bytes.slice? buffer (next + payload.length)
          (next + payload.length + Bytes.lineEnd.length) = some [first, second] :=
        Bytes.slice?_of_drop last rest
      have after : buffer.drop (next + payload.length + Bytes.lineEnd.length) = behind :=
        @Bytes.drop_of_drop buffer [first, second] behind _ rest
      have ended : [first, second] = Bytes.lineEnd ↔
          first = Bytes.carriageReturn ∧ second = Bytes.lineFeed := by simp [Bytes.lineEnd]
      rw [if_neg (Nat.not_lt_of_ge enough), slice, readContent_eq split]
      by_cases marks : first = Bytes.carriageReturn ∧ second = Bytes.lineFeed
      · rw [if_pos marks, ← after, ofReading_drop _ enough]
        simp only [ended.mpr marks, if_true, Bytes.slice?_of_drop within arrived]
      · rw [if_neg marks]
        exact if_neg (mt ended.mp marks)

private theorem elementsAt_eq {element : Bytes → Reading FrameFault Value} (stable : Stable element)
    {call : Nat → Option Found} {count : Nat} {done : List Value}
    (calls : 0 < count → ∀ position ≤ buffer.length,
      call position = some (.ofReading buffer.length (element (buffer.drop position))))
    (within : position ≤ buffer.length) :
    elementsAt call count done position =
      some (.ofReading buffer.length (readElements element count done (buffer.drop position))) := by
  induction count generalizing done position with
  | zero => exact congrArg some (ofReading_drop _ within).symm
  | succ count ih =>
    have each := calls (Nat.succ_pos count)
    rw [elementsAt, readElements, each position within]
    cases read : element (buffer.drop position) with
    | value first rest =>
      have suffix := (stable.suffix read).trans (List.drop_suffix position buffer)
      have next : buffer.drop (buffer.length - rest.length) = rest :=
        (List.suffix_iff_eq_drop.mp suffix).symm
      have later := @ih _ (first :: done) (fun _ => each) (Nat.sub_le buffer.length rest.length)
      rwa [next] at later
    | incomplete => rfl
    | malformed fault => rfl

/-- What a first line decides is what is read: at once, or by reading the elements behind it. -/
def Head.Tells (buffer : Bytes) (depth : Nat) : Head → Reading FrameFault Value → Prop
  | .settled found, reading => found = .ofReading buffer.length reading
  | .elements count next, reading =>
    next ≤ buffer.length ∧ (0 < count → depth < maxDepth) ∧
      reading = readElements (readNested (maxDepth - (depth + 1))) count [] (buffer.drop next)

private theorem arrayAt_tells (within : next ≤ buffer.length) :
    (arrayAt depth content next).Tells buffer depth
      (readArray (elementReader? (maxDepth - depth)) content (buffer.drop next)) := by
  cases announcement : announced maxArrayLength content with
  | refused => simp only [arrayAt, readArray, announcement, Head.Tells, Found.ofReading]
  | absent => simp only [arrayAt, readArray, announcement, Head.Tells, ofReading_drop _ within]
  | length count =>
    cases count with
    -- An empty array is settled without a call, so it may stand at any depth.
    | zero =>
      simp only [arrayAt, readArray, announcement, Nat.lt_irrefl, false_and, if_false]
      exact ⟨within, fun some => absurd some (Nat.lt_irrefl 0), rfl⟩
    | succ fewer =>
      rcases Nat.lt_or_ge depth maxDepth with above | deep
      · have deeper : maxDepth - depth = maxDepth - (depth + 1) + 1 := by omega
        simp only [arrayAt, readArray, announcement, Nat.not_le_of_gt above, and_false, if_false, deeper,
          elementReader?]
        exact ⟨within, fun _ => above, rfl⟩
      · simp only [arrayAt, readArray, announcement, Nat.succ_pos, deep, and_self, if_true,
          Nat.sub_eq_zero_of_le deep, elementReader?]
        rfl

private theorem markedAt_tells (within : next ≤ buffer.length) :
    (markedAt buffer depth line next).Tells buffer depth
      (readBehind (elementReader? (maxDepth - depth)) line (buffer.drop next)) := by
  cases line with
  | nil => rfl
  | cons mark content =>
    rw [markedAt, readBehind]
    split
    · exact textAt_eq .simple within
    split
    · exact textAt_eq .error within
    split
    · exact integerAt_eq within
    split
    · exact bulkAt_eq within
    split
    · exact arrayAt_tells within
    · rfl

private theorem headAt_tells (buffer : Bytes) (start depth : Nat) :
    (headAt buffer start depth).Tells buffer depth
      (readNested (maxDepth - depth) (buffer.drop start)) := by
  rw [headAt, Bytes.lineEndFrom?_eq, readNested_eq]
  cases split : Bytes.splitLine? (buffer.drop start) with
  | none =>
    rw [readFrame, split]
    rfl
  | some parts =>
    obtain ⟨line, rest⟩ := parts
    have arrived := Bytes.splitLine?_append split
    rw [List.append_assoc] at arrived
    have within : start ≤ buffer.length := by
      by_contra beyond
      rw [List.drop_of_length_le (Nat.le_of_not_le beyond)] at arrived
      simp [Bytes.lineEnd] at arrived
    have ending := Bytes.drop_of_drop arrived
    have inside := Bytes.add_length_le_of_drop within arrived
    have next := Bytes.add_length_le_of_drop inside ending
    rw [readFrame_of_splitLine? _ split]
    simp only [Option.map_some, Bytes.slice?_of_drop within arrived]
    rw [← Bytes.drop_of_drop ending]
    exact markedAt_tells next

theorem frameAt_eq {call : Nat → Nat → Option Found}
    (calls : depth < maxDepth → ∀ position ≤ buffer.length, call position (depth + 1) =
      some (.ofReading buffer.length (readNested (maxDepth - (depth + 1)) (buffer.drop position))))
    (start : Nat) : frameAt call buffer start depth =
      some (.ofReading buffer.length (readNested (maxDepth - depth) (buffer.drop start))) := by
  have tells := headAt_tells buffer start depth
  rw [frameAt]
  cases head : headAt buffer start depth with
  | settled found =>
    rw [head] at tells
    exact congrArg some tells
  | elements count next =>
    rw [head] at tells
    obtain ⟨within, above, same⟩ := tells
    rw [same]
    exact elementsAt_eq (readNested_stable _) (fun some => calls (above some)) within

/-- With room for the calls that the depth leaves, the reader finds what is read. -/
theorem readWithin_eq (room : maxDepth - depth ≤ levels) (start : Nat) :
    readWithin buffer levels start depth =
      some (.ofReading buffer.length (readNested (maxDepth - depth) (buffer.drop start))) := by
  induction levels generalizing depth start with
  | zero => exact frameAt_eq (fun above => absurd room (by omega)) start
  | succ levels ih => exact frameAt_eq (fun _ position _ => ih (by omega) position) start

private theorem readWithin_extends {reader : Nat → Nat → Option Found} (own : CallsItself buffer reader)
    (levels : Nat) : Extends (readWithin buffer levels) reader := by
  induction levels with
  | zero =>
    have nothing : Extends (fun _ _ => none) reader := by
      intro start depth found absurd
      cases absurd
    rw [own]
    exact frameAt_extends nothing buffer
  | succ levels ih =>
    rw [own]
    exact frameAt_extends ih buffer

/-- Calls that nothing bounds end by themselves: the only reader that calls itself is the one with
room for as many calls as arrays may nest. -/
theorem callsItself_iff {reader : Nat → Nat → Option Found} :
    CallsItself buffer reader ↔ reader = readWithin buffer maxDepth := by
  have room : ∀ levels, maxDepth ≤ levels → ∀ start depth, readWithin buffer levels start depth =
      some (.ofReading buffer.length (readNested (maxDepth - depth) (buffer.drop start))) :=
    fun levels enough start depth => readWithin_eq (by omega) start
  constructor
  · intro own
    funext start depth
    have found := room maxDepth (Nat.le_refl _) start depth
    rw [found]
    exact readWithin_extends own maxDepth start depth _ found
  -- Its calls are those of the reader with room for one more, which finds the same.
  · rintro rfl
    funext start depth
    have more : frameAt (readWithin buffer maxDepth) buffer start depth = _ :=
      room (maxDepth + 1) (Nat.le_succ _) start depth
    rw [more, room maxDepth (Nat.le_refl _)]

end

end Value

end RespKeyspace
