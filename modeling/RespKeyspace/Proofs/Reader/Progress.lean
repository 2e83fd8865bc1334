import RespKeyspace.Proofs.Reader.Positions
import RespKeyspace.Proofs.Reader.Shortest

/-! What reading takes and what it costs. Three bytes of a buffer pay for each value in what is
read, and for each attempt to read one more. -/

namespace RespKeyspace.Value

mutual

/-- The values in a value: itself, and all that stand in it. -/
def total : Value → Nat
  | .array elements => totalAll elements + 1
  | _ => 1

def totalAll : List Value → Nat
  | [] => 0
  | value :: rest => total value + totalAll rest

end

/-- Read every complete value with no more than so many attempts, those before them held newest
first. Nothing comes of it where one more attempt is needed. -/
def readAllWithin : Nat → List Value → Bytes → Option (Reading FrameFault (List Value))
  | 0, _, _ => none
  | attempts + 1, done, bytes =>
    match read bytes with
    | .value value rest => readAllWithin attempts (value :: done) rest
    | .incomplete => some (if done.isEmpty then .incomplete else .value done.reverse bytes)
    | .malformed fault => some (if done.isEmpty then .malformed fault else .value done.reverse bytes)

section

variable {levels start behind attempts : Nat} {value : Value} {buffer bytes rest form : Bytes}

private theorem total_pos (value : Value) : 0 < value.total := by
  cases value <;> simp [total]

theorem totalAll_le {parts : List (Value × Bytes)}
    (each : ∀ part ∈ parts, 3 * part.1.total ≤ part.2.length) :
    3 * totalAll (parts.map Prod.fst) ≤ (parts.flatMap Prod.snd).length := by
  induction parts with
  | nil => exact Nat.le_refl 0
  | cons first later ih =>
    have head := each first List.mem_cons_self
    have tail := ih fun part member => each part (List.mem_cons_of_mem _ member)
    simp only [List.map_cons, List.flatMap_cons, List.length_append, totalAll]
    omega

/-- Every form of a value has three bytes for each value in it. -/
theorem Spelling.total_le (spelled : Spelling levels value form) : 3 * value.total ≤ form.length := by
  induction spelled with
  | simple | error | integer | null =>
    simp only [total, length_line]
    omega
  | bulk denotes short =>
    simp only [total, List.length_append, length_line]
    omega
  | empty denotes =>
    rw [total, totalAll, length_line]
    omega
  | array denotes few each ih =>
    have inside := totalAll_le ih
    simp only [total, List.length_append, length_line]
    omega

theorem total_le_of_readNested (found : readNested levels bytes = .value value rest) :
    3 * value.total + rest.length ≤ bytes.length := by
  obtain ⟨form, spelled, rfl⟩ := (takesForms levels bytes value rest).mp found
  have paid := spelled.total_le
  rw [List.length_append]
  omega

/-- What is found at a position lies behind it and in the buffer, and has three bytes for each
value in it. -/
theorem bounds_of_ofReading
    (found : Found.ofReading buffer.length (readNested levels (buffer.drop start)) = .value value behind) :
    start + 3 * value.total ≤ behind ∧ behind ≤ buffer.length := by
  cases read : readNested levels (buffer.drop start) with
  | value taken rest =>
    rw [read, Found.ofReading] at found
    cases found
    have paid := total_le_of_readNested read
    have some := total_pos value
    rw [List.length_drop] at paid
    omega
  | incomplete => simp [read, Found.ofReading] at found
  | malformed fault => simp [read, Found.ofReading] at found

private theorem ofReading_ne_outside (length : Nat) (reading : Reading FrameFault Value) :
    Found.ofReading length reading ≠ .outside := by
  cases reading <;> simp [Found.ofReading]

/-- An attempt that gives a value leaves three bytes less for those behind it. -/
theorem readAllWithin_eq (done : List Value) (enough : bytes.length / 3 < attempts) :
    readAllWithin attempts done bytes = some (readAllAfter done bytes) := by
  fun_induction readAllAfter done bytes generalizing attempts with
  | case1 done bytes value rest found shorter ih =>
    obtain ⟨fewer, rfl⟩ := Nat.exists_eq_add_one_of_ne_zero (Nat.ne_zero_of_lt enough)
    rw [readAllWithin, found]
    exact ih (by omega)
  | case2 done bytes found none | case3 done bytes found none =>
    obtain ⟨fewer, rfl⟩ := Nat.exists_eq_add_one_of_ne_zero (Nat.ne_zero_of_lt enough)
    simp [readAllWithin, found, none]
  | case4 done bytes fault found none | case5 done bytes fault found none =>
    obtain ⟨fewer, rfl⟩ := Nat.exists_eq_add_one_of_ne_zero (Nat.ne_zero_of_lt enough)
    simp [readAllWithin, found, none]

end

/-- A reader that calls itself, with nothing to bound the calls, is a reader with room for as many
calls within one another as arrays may nest, and at a depth it needs no more than the depth leaves.
At every position of every buffer it finds what is read, and it takes no bytes that are not in the
buffer. A value that is found ends in the buffer, at least three bytes behind its beginning, and
three bytes pay for each value in it, whatever its headers announce. All values of a buffer are
read with one attempt for each three bytes of it, and one more. -/
theorem reading_is_bounded (buffer : Bytes) :
    (∀ reader, CallsItself buffer reader ↔ reader = readWithin buffer maxDepth) ∧
    (∀ start depth, ∃ found, found ≠ .outside ∧
      found = .ofReading buffer.length (readNested (maxDepth - depth) (buffer.drop start)) ∧
      (∀ levels, maxDepth - depth ≤ levels → readWithin buffer levels start depth = some found) ∧
      ∀ value behind, found = .value value behind →
        start + 3 ≤ behind ∧ behind ≤ buffer.length ∧ value.total ≤ (behind - start) / 3) ∧
    ∀ attempts, buffer.length / 3 < attempts →
      readAllWithin attempts [] buffer = some (readAll buffer) := by
  refine ⟨fun reader => callsItself_iff, ?_, ?_⟩
  · intro start depth
    refine ⟨_, ofReading_ne_outside _ _, rfl, ?_, ?_⟩
    · intro levels room
      exact readWithin_eq room start
    · intro value behind found
      obtain ⟨paid, inside⟩ := bounds_of_ofReading found
      have some := total_pos value
      omega
  · intro attempts enough
    exact readAllWithin_eq [] enough

/-- A frame with all arrays that may nest, behind another frame: it is found up to the end of the
buffer, and with room for one call less nothing is found. Two frames take three attempts. -/
theorem deepest_frame_takes_all_room :
    let frame := (List.replicate maxDepth (Bytes.ofText "*1\r\n")).flatten ++ Bytes.ofText "$-1\r\n"
    let buffer := Bytes.ofText "+\r\n" ++ frame
    let value := Nat.repeat (fun inner => .array [inner]) maxDepth .null
    CallsItself buffer (readWithin buffer maxDepth) ∧
      readWithin buffer maxDepth 3 0 = some (.value value buffer.length) ∧
      readWithin buffer (maxDepth - 1) 3 0 = none ∧ value.total ≤ (buffer.length - 3) / 3 ∧
      readAllWithin (buffer.length / 3 + 1) [] buffer = some (readAll buffer) ∧
      readAllWithin 2 [] buffer = none := by
  intro frame buffer value
  obtain ⟨calls, finds, attempts⟩ := reading_is_bounded buffer
  obtain ⟨found, inside, reading, room, bounds⟩ := finds 3 0
  have within : readWithin buffer maxDepth 3 0 = some (.value value buffer.length) := by
    decide +kernel
  obtain rfl : Found.value value buffer.length = found :=
    Option.some.inj (within.symm.trans (room maxDepth (Nat.le_refl _)))
  obtain ⟨further, ends, few⟩ := bounds value buffer.length rfl
  refine ⟨(calls _).mpr rfl, within, by decide +kernel, few, ?_, by decide +kernel⟩
  exact attempts _ (Nat.lt_succ_self _)

end RespKeyspace.Value
