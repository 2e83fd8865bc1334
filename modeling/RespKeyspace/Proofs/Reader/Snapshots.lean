import RespKeyspace.Proofs.Reader.Grammar

/-! The frames of snapshots, said without a reader. A header tells how many bytes follow, and
nothing behind them ends a frame, so a payload may hold any bytes. -/

namespace RespKeyspace

namespace Decimal

/-- Digits, perhaps behind a plus sign, and the number they denote. -/
inductive Count : Bytes → Nat → Prop where
  | plain {digits number} (run : Digits digits number) : Count digits number
  | plus {digits number} (run : Digits digits number) : Count (0x2B :: digits) number

variable {limit number : Nat} {bytes : Bytes}

theorem unsigned?_eq_some_iff :
    unsigned? limit bytes = some number ↔ Count bytes number ∧ number ≤ limit := by
  constructor
  · intro read
    obtain ⟨digits, shape, found⟩ := unsigned?_cases read
    obtain ⟨run, within⟩ := digits?_eq_some_iff.mp found
    refine ⟨?_, within⟩
    rcases shape with rfl | rfl
    · exact .plain run
    · exact .plus run
  · intro denoted
    obtain ⟨count, within⟩ := denoted
    cases count with
    | plain run => exact unsigned?_of_digits? (digits?_eq_some_iff.mpr ⟨run, within⟩)
    | plus run => exact digits?_eq_some_iff.mpr ⟨run, within⟩

end Decimal

namespace Snapshot

/-- The frames of snapshots, each with the payload it carries. -/
inductive Framed : Bytes → Bytes → Prop where
  | behind {header payload} (count : Decimal.Count header payload.length)
      (short : payload.length ≤ Value.maxBulkLength) :
      Framed (Value.line Value.bulkMark header ++ payload) payload

variable {buffer payload rest : Bytes}

/-- A reader takes exactly the frames of snapshots off the front of a buffer. -/
theorem read_eq_value_iff_framed :
    read buffer = .value payload rest ↔ ∃ form, buffer = form ++ rest ∧ Framed form payload := by
  rw [read_eq_value_iff]
  constructor
  · intro found
    obtain ⟨digits, announced, whole⟩ := found
    obtain ⟨count, short⟩ := Decimal.unsigned?_eq_some_iff.mp announced
    exact ⟨_, whole, .behind count short⟩
  · intro begins
    obtain ⟨form, whole, framed⟩ := begins
    cases framed with
    | behind count short => exact ⟨_, Decimal.unsigned?_eq_some_iff.mpr ⟨count, short⟩, whole⟩

private theorem exists_framed_iff :
    (∃ form, buffer = form ++ rest ∧ Framed form payload) ↔
      ∃ header count more, buffer = Value.bulkMark :: header ++ Bytes.lineEnd ++ more ∧
        Decimal.Count header count ∧ count ≤ Value.maxBulkLength ∧ count ≤ more.length ∧
        payload = more.take count ∧ rest = more.drop count := by
  constructor
  · intro begins
    obtain ⟨form, whole, framed⟩ := begins
    cases framed with
    | @behind header payload count short =>
      refine ⟨header, payload.length, payload ++ rest, ?_, count, short, ?_, ?_, ?_⟩
      · simpa [Value.line] using whole
      · simp
      · simp
      · simp
  · intro announced
    obtain ⟨header, count, more, whole, denotes, short, arrived, taken, left⟩ := announced
    have length : payload.length = count := by simp [taken, arrived]
    subst length
    refine ⟨_, ?_, .behind denotes short⟩
    have parts : payload ++ rest = more := by
      rw [left]
      nth_rewrite 1 [taken]
      exact List.take_append_drop _ more
    simp [whole, Value.line, ← parts]

/-- A framed snapshot is read back whatever its payload holds and whatever follows it, and is
incomplete up to its last byte. What a buffer gives, a longer one gives too, and a reading that
gives no payload takes nothing. A payload is given exactly if the buffer begins with a header
that announces a number of bytes within the limit and at least as many bytes have arrived behind
it; they are the payload. -/
theorem snapshots_end_where_announced :
    (∀ payload rest, payload.length ≤ Value.maxBulkLength →
      read (encode payload ++ rest) = .value payload rest ∧
        ∀ part, part <+: encode payload → part ≠ encode payload → read part = .incomplete) ∧
    (∀ buffer payload rest, read buffer = .value payload rest →
      ∀ more, read (buffer ++ more) = .value payload (rest ++ more)) ∧
    (∀ buffer fault, read buffer = .malformed fault →
      ∀ more, read (buffer ++ more) = .malformed fault) ∧
    (∀ buffer, (∀ payload rest, read buffer ≠ .value payload rest) →
      (read buffer).rest buffer = buffer) ∧
    ∀ buffer payload rest, read buffer = .value payload rest ↔
      ∃ header count more, buffer = Value.bulkMark :: header ++ Bytes.lineEnd ++ more ∧
        Decimal.Count header count ∧ count ≤ Value.maxBulkLength ∧ count ≤ more.length ∧
        payload = more.take count ∧ rest = more.drop count := by
  refine ⟨?_, ?_, ?_, ?_, ?_⟩
  · intro payload rest short
    refine ⟨read_encode short rest, ?_⟩
    intro part before shorter
    have sole : read (encode payload) = .value payload [] := by simpa using read_encode short []
    exact read_stable.incomplete_of_shorter before shorter sole
  · intro buffer payload rest found
    exact read_stable.value found
  · intro buffer fault found
    exact read_stable.malformed found
  · intro buffer undecided
    cases found : read buffer with
    | value payload rest => exact absurd found (undecided payload rest)
    | incomplete => rfl
    | malformed fault => rfl
  · intro buffer payload rest
    exact read_eq_value_iff_framed.trans exists_framed_iff

/-- A payload that is itself a framed snapshot with a line behind it is read back whole; without
its last byte it is awaited. -/
theorem framed_payload_is_read_whole :
    let payload := encode Bytes.lineEnd ++ Bytes.ofText "*1\r\n"
    payload.length ≤ Value.maxBulkLength ∧
      read (encode payload ++ Bytes.ofText "$") = .value payload (Bytes.ofText "$") ∧
      read (encode payload).dropLast = .incomplete := by
  intro payload
  have short : payload.length ≤ Value.maxBulkLength := by decide +kernel
  obtain ⟨whole, parts⟩ := snapshots_end_where_announced.1 payload (Bytes.ofText "$") short
  exact ⟨short, whole, parts _ (List.dropLast_prefix _) (by decide +kernel)⟩

end Snapshot

end RespKeyspace
