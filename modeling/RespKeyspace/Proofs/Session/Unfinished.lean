import RespKeyspace.Proofs.Reader.Unfinished
import RespKeyspace.Proofs.Session.Sequential

/-! Buffers of which nothing is decided. Behind what is complete in them stands a line that has
not ended or a bulk string that lacks bytes, and only some of these are parts of frames: what a
line says, and what follows the content of a string, is judged no sooner than all of it is there. -/

namespace RespKeyspace

namespace Connection

variable {connection : Connection} {now : Nat} {server : Server} {buffer : Bytes}

theorem receive_of_incomplete (undecided : Value.read buffer = .incomplete) :
    connection.receive now buffer server = (some buffer, server) := by
  rw [receive_eq, Value.decoded_of_incomplete undecided]
  rfl

theorem receive_of_malformed {fault : FrameFault} (refused : Value.read buffer = .malformed fault) :
    connection.receive now buffer server = (none, connection.finish server) := by
  rw [receive_eq, Value.decoded_of_malformed refused]
  rfl

end Connection

namespace Value

/-- The proper beginnings of frames. -/
def PartOfFrame (bytes : Bytes) : Prop :=
  ∃ form value, Framed .enforced 0 form value ∧ bytes <+: form ∧ bytes ≠ form

section

variable {depth : Nat} {front part buffer : Bytes}

theorem Opening.partOfFrame (opened : Opening depth front) (promising : Promising depth part) :
    PartOfFrame (front ++ part) := by
  obtain ⟨form, value, framed, begins, shorter⟩ := promising.framed
  obtain ⟨whole, outermost, complete, inside⟩ := opened.complete framed
  have within : front ++ part <+: front ++ form := (List.prefix_append_right_inj front).mpr begins
  refine ⟨whole, outermost, complete, within.trans inside, ?_⟩
  rintro rfl
  have same := within.eq_of_length (Nat.le_antisymm within.length_le inside.length_le)
  exact shorter (List.append_cancel_left same)

/-- Nothing is decided of part of a frame, and the frame itself continues it. -/
theorem PartOfFrame.undecided (beginning : PartOfFrame buffer) :
    read buffer = .incomplete ∧ ∃ more value rest, read (buffer ++ more) = .value value rest := by
  obtain ⟨form, value, framed, begins, shorter⟩ := beginning
  have found : read form = .value value [] :=
    (read_takes_frames.1 form value []).mpr ⟨form, (List.append_nil form).symm, framed⟩
  refine ⟨read_stable.incomplete_of_shorter begins shorter found, ?_⟩
  obtain ⟨more, rfl⟩ := begins
  exact ⟨more, value, [], found⟩

end

/-- Nothing is decided of a buffer exactly if, behind the headers and elements that are complete at
its front, a line has not ended or a bulk string lacks bytes. It is part of a frame exactly if
some continuation of it is read, which depends on whether what stands there is promising. If it is
not, a connection holds the buffer until the line ends or, behind a bulk string, one more byte
arrives, and then it is closed. -/
theorem incomplete_iff_unfinished (buffer : Bytes) :
    (read buffer = .incomplete ↔
      ∃ depth front part, Opening depth front ∧ Unfinished part ∧ buffer = front ++ part) ∧
    (PartOfFrame buffer ↔
      read buffer = .incomplete ∧ ∃ more value rest, read (buffer ++ more) = .value value rest) ∧
    ∀ depth front part, Opening depth front → Unfinished part → buffer = front ++ part →
      (PartOfFrame buffer ↔ Promising depth part) ∧
      (¬ Promising depth part → ∀ more (connection : Connection) now server,
        (more = [] ∨ ¬ Bytes.lineEnd <:+: part ++ more →
          read (buffer ++ more) = .incomplete ∧
          connection.receive now (buffer ++ more) server = (some (buffer ++ more), server)) ∧
        (more ≠ [] → Bytes.lineEnd <:+: part ++ more →
          (∃ fault, read (buffer ++ more) = .malformed fault) ∧
          connection.receive now (buffer ++ more) server = (none, connection.finish server))) := by
  have halts : read buffer = .incomplete ↔
      ∃ depth front part, Opening depth front ∧ Unfinished part ∧ buffer = front ++ part := by
    constructor
    · exact Opening.outermost.exists_unfinished
    · rintro ⟨depth, front, part, opened, unfinished, rfl⟩
      exact opened.read_unfinished unfinished
  have promises : ∀ depth front part more value rest, Opening depth front → Unfinished part →
      read (front ++ part ++ more) = .value value rest → Promising depth part := by
    intro depth front part more value rest opened unfinished found
    by_contra dead
    exact (opened.read_unpromising unfinished dead more).2 value rest found
  refine ⟨halts, ⟨PartOfFrame.undecided, ?_⟩, ?_⟩
  · rintro ⟨undecided, more, value, rest, found⟩
    obtain ⟨depth, front, part, opened, unfinished, rfl⟩ := halts.mp undecided
    exact opened.partOfFrame (promises _ _ _ more value rest opened unfinished found)
  · rintro depth front part opened unfinished rfl
    refine ⟨⟨?_, opened.partOfFrame⟩, ?_⟩
    · intro beginning
      obtain ⟨_, more, value, rest, found⟩ := beginning.undecided
      exact promises _ _ _ more value rest opened unfinished found
    · intro dead more connection now server
      obtain ⟨waits, none⟩ := opened.read_unpromising unfinished dead more
      refine ⟨?_, ?_⟩
      · intro still
        have undecided := waits.mpr still
        exact ⟨undecided, Connection.receive_of_incomplete undecided⟩
      · intro arrived ended
        cases found : read (front ++ part ++ more) with
        | value value rest => exact absurd found (none value rest)
        | incomplete => exact (waits.mp found).elim (absurd · arrived) (absurd ended)
        | malformed fault => exact ⟨⟨fault, rfl⟩, Connection.receive_of_malformed found⟩

private theorem not_promising_of_mark {depth : Nat} {mark : UInt8} {tail : Bytes}
    (unknown : mark ∉ [simpleMark, errorMark, integerMark, bulkMark, arrayMark]) :
    ¬ Promising depth (mark :: tail) := by
  simp only [List.mem_cons, List.not_mem_nil, or_false, not_or] at unknown
  intro promising
  generalize whole : mark :: tail = part at promising
  cases promising with
  | bulk => exact unknown.2.2.2.1 (List.cons.inj whole).1
  | line leads begins =>
    subst whole
    cases leads with
    | simple => exact unknown.1 (List.cons_prefix_cons.mp begins).1
    | error => exact unknown.2.1 (List.cons_prefix_cons.mp begins).1
    | integer => exact unknown.2.2.1 (List.cons_prefix_cons.mp begins).1
    | bulk => exact unknown.2.2.2.1 (List.cons_prefix_cons.mp begins).1
    | array => exact unknown.2.2.2.2 (List.cons_prefix_cons.mp begins).1
    | null header =>
      rcases header with rfl | rfl
      · exact unknown.2.2.2.1 (List.cons_prefix_cons.mp begins).1
      · exact unknown.2.2.2.2 (List.cons_prefix_cons.mp begins).1

/-- An element behind a mark that leads no frame is waited for all the same: the request around it
is no part of a frame, a connection holds it, and the line end is what closes the connection. -/
theorem unknown_element_waits_for_line_end :
    let front := Bytes.ofText "*2\r\n$1\r\na\r\n"
    let part : Bytes := [0x21]
    let connection : Connection := ⟨"peer", .client, 0, some front⟩
    let server := Server.start (.primary .empty) "id"
    Opening 1 front ∧ Unfinished part ∧ ¬ Promising 1 part ∧ ¬ PartOfFrame (front ++ part) ∧
      connection.receive 0 (front ++ part) server = (some (front ++ part), server) ∧
      connection.receive 0 (front ++ part ++ Bytes.lineEnd) server =
        (none, connection.finish server) := by
  intro front part connection server
  have opened : Opening 1 front := by
    have header : Decimal.Numeral [Decimal.digitByte 2] (2 : Nat) := .plain (.last (by decide))
    have length : Decimal.Numeral [Decimal.digitByte 1] (1 : Nat) := .plain (.last (by decide))
    let element : Value × Bytes :=
      (.bulk [0x61], line bulkMark [Decimal.digitByte 1] ++ [0x61] ++ Bytes.lineEnd)
    have each : ∀ part ∈ [element], Framed .enforced 1 part.2 part.1 := by
      intro part member
      rw [List.mem_singleton.mp member]
      exact .bulk length (by decide)
    exact @Opening.inside 0 [] _ 2 [element] .outermost (by decide) header (by decide) each (by decide)
  have unfinished : Unfinished part := .line (Bytes.not_lineEnd_infix_singleton 0x21)
  have dead : ¬ Promising 1 part := not_promising_of_mark (by decide)
  obtain ⟨beginning, refused⟩ :=
    (incomplete_iff_unfinished (front ++ part)).2.2 1 front part opened unfinished rfl
  have waits := refused dead [] connection 0 server
  have closes := refused dead Bytes.lineEnd connection 0 server
  refine ⟨opened, unfinished, dead, fun inside => dead (beginning.mp inside), ?_, ?_⟩
  · simpa using (waits.1 (.inl rfl)).2
  · exact (closes.2 (by decide) (List.suffix_append _ _).isInfix).2

/-- Bytes that begin with no mark of a frame: nothing is decided of them, no continuation of them
is read, and a connection holds as many of them as arrive. -/
theorem unknown_marks_are_held :
    let connection : Connection := ⟨"peer", .client, 0, some []⟩
    let server := Server.start (.primary .empty) "id"
    read [0x21] = .incomplete ∧ ¬ PartOfFrame [0x21] ∧
      (∀ more value rest, read ([0x21] ++ more) ≠ .value value rest) ∧
      ∀ count, connection.receive 0 (List.replicate count 0x21) server =
        (some (List.replicate count 0x21), server) := by
  intro connection server
  have none : ∀ more value rest, read ([0x21] ++ more) ≠ .value value rest := by
    intro more value rest found
    obtain ⟨mark, content, later, _, same, behind⟩ := readNested_eq_value_iff_line.mp found
    obtain rfl : 0x21 = mark := (List.cons.inj same).1
    rcases readBehind_eq_value_cases behind with
      ⟨same, _⟩ | ⟨same, _⟩ | ⟨same, _⟩ | ⟨same, _⟩ | ⟨same, _⟩
    all_goals exact absurd same (by decide)
  refine ⟨rfl, ?_, none, ?_⟩
  · intro beginning
    obtain ⟨_, more, value, rest, found⟩ := beginning.undecided
    exact none more value rest found
  · intro count
    apply Connection.receive_of_incomplete
    apply readNested_of_unended
    apply Bytes.not_lineEnd_infix_of_notMem
    intro member
    exact absurd (List.eq_of_mem_replicate member) (by decide)

end Value

end RespKeyspace
