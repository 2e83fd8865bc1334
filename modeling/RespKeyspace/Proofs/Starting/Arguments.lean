import Mathlib.Data.List.Basic
import RespKeyspace.Options
import RespKeyspace.Proofs.Reader.Snapshots
import RespKeyspace.Proofs.Reader.Words

/-! The arguments of a command line, one after the other. They are accepted in the order in which
they stand, each option at most once, and an accepted port and primary are those that are named. -/

namespace RespKeyspace

namespace Bytes

theorem ofText_toString (number : Nat) : ofText (toString number) = Decimal.ofNat number := by
  rw [ofText_eq, Nat.toString_eq_repr, Nat.toList_repr, Decimal.ofNat, List.map_eq_flatMap]
  apply List.flatMap_congr
  intro char member
  have digit := Char.isDigit_iff_toNat.mp (Nat.isDigit_of_mem_toDigits (by decide) (by decide) member)
  have ascii : char.val ≤ 127 := UInt32.le_iff_toNat_le.mpr (Nat.le_trans digit.2 (by decide))
  exact String.utf8EncodeChar_eq_singleton (Char.utf8Size_eq_one_iff.mpr ascii)

end Bytes

namespace Decimal

variable {text : String} {number : Nat}

theorem Count.isWord (count : Count (Bytes.ofText text) number) : Text.IsWord text := by
  have shape : Bytes.ofText text ≠ [] ∧
      ∀ byte ∈ Bytes.ofText text, byte = 0x2B ∨ (digit? byte).isSome = true := by
    generalize Bytes.ofText text = bytes at count
    cases count with
    | plain run => exact ⟨run.ne_nil, fun byte member => .inr (run.isDigit byte member)⟩
    | plus run =>
      refine ⟨List.cons_ne_nil _ _, List.forall_mem_cons.mpr ⟨.inl rfl, ?_⟩⟩
      exact fun byte member => .inr (run.isDigit byte member)
  refine ⟨?_, ?_⟩
  · rintro rfl
    exact shape.1 rfl
  · rw [List.any_eq_false]
    intro char member
    -- The first byte of a character is the character itself where that byte is a sign or a digit.
    obtain ⟨byte, rest, encoded⟩ : ∃ byte rest, String.utf8EncodeChar char = byte :: rest :=
      List.exists_cons_of_length_pos (by rw [String.length_utf8EncodeChar]; exact char.utf8Size_pos)
    have inside : byte ∈ String.utf8EncodeChar char := encoded ▸ List.mem_cons_self
    have written : byte ∈ Bytes.ofText text := by
      rw [Bytes.ofText_eq]
      exact List.mem_flatMap.mpr ⟨char, member, inside⟩
    have range : 0x2B ≤ byte.toNat ∧ byte.toNat ≤ 0x39 := by
      rcases shape.2 byte written with rfl | digit
      · decide
      · unfold digit? at digit
        split at digit
        · rename_i within
          have low : 0x30 ≤ byte.toNat := UInt8.le_iff_toNat_le.mp within.1
          have high : byte.toNat ≤ 0x39 := UInt8.le_iff_toNat_le.mp within.2
          omega
        · cases digit
    have code : char.toNat = byte.toNat :=
      Bytes.toNat_eq_of_mem_utf8EncodeChar (by omega) inside
    simp [Text.isBlank, code]
    omega

end Decimal

namespace Options

def IsPort (port : Nat) : Prop := 1 ≤ port ∧ port ≤ 65535

theorem port?_eq_some_iff {text : String} {port : Nat} :
    port? text = some port ↔ Decimal.Count (Bytes.ofText text) port ∧ IsPort port := by
  rw [port?, Option.filter_eq_some_iff, Decimal.unsigned?_eq_some_iff, decide_eq_true_iff, IsPort]
  tauto

namespace Scan

/-- The arguments that are accepted from a state on, with the state they end in. -/
inductive Accepts : Scan → List Argument → Scan → Prop where
  | done {scan final} (settles : scan.settle = .ok final) : Accepts scan [] final
  | terminated {scan final} (settles : scan.settle = .ok final) : Accepts scan [.terminator] final
  | attached {scan settled accepted final key text rest} (settles : scan.settle = .ok settled)
      (takes : settled.accept key text = .ok accepted) (later : Accepts accepted rest final) :
      Accepts scan (.option key (some text) :: rest) final
  | apart {scan settled final key text rest} (settles : scan.settle = .ok settled)
      (later : Accepts { settled with waiting := some (key, text) } rest final) :
      Accepts scan (.option key none :: .word text :: rest) final

variable {scan settled accepted final : Scan} {arguments rest : List Argument} {key : Key}
  {text other : String}

theorem accepts_of_run (found : scan.run arguments = .ok final) : Accepts scan arguments final := by
  fun_induction run scan arguments with
  | case1 scan => exact .done found
  | case5 scan => exact .terminated found
  | case9 scan key text rest settled settles accepted takes ih =>
    exact .attached settles takes (ih found)
  | case11 scan key settled settles text rest ih => exact .apart settles (ih found)
  | _ => cases found

/-- What a value that is judged makes of the values before it. -/
theorem accept_cases (takes : settled.accept key text = .ok accepted) :
    (key = .port ∧ settled.port = none ∧ ∃ port, port? text = some port ∧
      accepted = { settled with port := some port }) ∨
    (key = .primary ∧ settled.primary = none ∧ accepted = { settled with primary := some text }) := by
  unfold accept at takes
  split at takes
  · split at takes
    · cases takes
    rename_i first
    split at takes
    · cases takes
    · rename_i port read
      cases takes
      exact .inl ⟨rfl, by simpa using first, port, read, rfl⟩
  · split at takes
    · cases takes
    · rename_i first
      cases takes
      exact .inr ⟨rfl, by simpa using first, rfl⟩

private theorem settle_cases (settles : scan.settle = .ok settled) :
    (scan.waiting = none ∧ settled = scan) ∨ ∃ key text, scan.waiting = some (key, text) ∧
      ({ scan with waiting := none } : Scan).accept key text = .ok settled := by
  unfold settle at settles
  split at settles
  · rename_i none
    cases settles
    exact .inl ⟨none, rfl⟩
  · rename_i key text waits
    exact .inr ⟨key, text, waits, settles⟩

private theorem accept_isPort (takes : settled.accept key text = .ok accepted)
    (within : ∀ port ∈ settled.port, IsPort port) : ∀ port ∈ accepted.port, IsPort port := by
  rcases accept_cases takes with ⟨_, _, port, read, rfl⟩ | ⟨_, _, rfl⟩
  · intro other same
    cases same
    exact (port?_eq_some_iff.mp read).2
  · exact within

private theorem settle_isPort (settles : scan.settle = .ok settled)
    (within : ∀ port ∈ scan.port, IsPort port) : ∀ port ∈ settled.port, IsPort port := by
  rcases settle_cases settles with ⟨_, rfl⟩ | ⟨key, text, _, takes⟩
  · exact within
  · exact accept_isPort takes within

theorem Accepts.isPort (accepts : Accepts scan arguments final)
    (within : ∀ port ∈ scan.port, IsPort port) : ∀ port ∈ final.port, IsPort port := by
  induction accepts with
  | done settles => exact settle_isPort settles within
  | terminated settles => exact settle_isPort settles within
  | attached settles takes later ih => exact ih (accept_isPort takes (settle_isPort settles within))
  | apart settles later ih =>
    have settled := settle_isPort settles within
    exact ih settled

/-- A primary that arguments name, by an argument alone or by the next one. -/
def Named (arguments : List Argument) (text : String) : Prop :=
  .option .primary (some text) ∈ arguments ∨ [.option .primary none, .word text] <:+: arguments

theorem named_attached_iff :
    Named (.option key (some other) :: rest) text ↔
      key = .primary ∧ other = text ∨ Named rest text := by
  simp [Named, List.infix_cons_iff, or_assoc, eq_comm]

theorem named_apart_iff :
    Named (.option key none :: .word other :: rest) text ↔
      key = .primary ∧ other = text ∨ Named rest text := by
  simp [Named, List.infix_cons_iff, or_left_comm, eq_comm]

private theorem accept_primary (takes : settled.accept key text = .ok accepted) :
    accepted.waiting = settled.waiting ∧
    ∀ other, accepted.primary = some other ↔
      settled.primary = some other ∨ key = .primary ∧ text = other := by
  rcases accept_cases takes with ⟨rfl, _, port, _, rfl⟩ | ⟨rfl, first, rfl⟩
  · simp
  · simp [first]

private theorem settle_primary (settles : scan.settle = .ok settled) :
    settled.waiting = none ∧ ∀ other, settled.primary = some other ↔
      scan.primary = some other ∨ scan.waiting = some (.primary, other) := by
  rcases settle_cases settles with ⟨none, rfl⟩ | ⟨key, text, waits, takes⟩
  · simp [none]
  · obtain ⟨still, taken⟩ := accept_primary takes
    simp [still, taken, waits]

theorem Accepts.primary_eq_iff (accepts : Accepts scan arguments final) :
    final.primary = some text ↔
      scan.primary = some text ∨ scan.waiting = some (.primary, text) ∨ Named arguments text := by
  induction accepts with
  | done settles => simp [settle_primary settles, Named]
  | terminated settles => simp [settle_primary settles, Named, List.infix_cons_iff]
  | attached settles takes later ih =>
    obtain ⟨waits, taken⟩ := accept_primary takes
    obtain ⟨none, settled⟩ := settle_primary settles
    rw [ih, taken, settled, waits, none, named_attached_iff]
    simp [or_assoc]
  | apart settles later ih =>
    obtain ⟨none, settled⟩ := settle_primary settles
    rw [ih, settled, named_apart_iff]
    simp [or_assoc]

theorem Accepts.exists_word {argument : Argument} (accepts : Accepts scan arguments final)
    (inside : [.option key none, argument] <:+: arguments) : ∃ text, argument = .word text := by
  induction accepts with
  | done => simp at inside
  | terminated => simp [List.infix_cons_iff] at inside
  | attached _ _ _ ih =>
    rcases List.infix_cons_iff.mp inside with first | later
    · simp at first
    · exact ih later
  | @apart _ _ _ _ word _ _ _ ih =>
    rcases List.infix_cons_iff.mp inside with first | later
    · simp at first
      exact ⟨word, first.2⟩
    · rcases List.infix_cons_iff.mp later with first | later
      · simp at first
      · exact ih later

end Scan

end Options

end RespKeyspace
