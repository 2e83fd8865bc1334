import RespKeyspace.Text.Uppercase
import RespKeyspace.Text.Utf8

/-! Capital letters in bytes of any kind. Beyond ASCII the letters `ſ` and `ı` alone have one of them
for their upper-case form; every other character, and every ill-formed part, is foreign to them. -/

namespace RespKeyspace

namespace Utf8

/-- A character beyond ASCII other than the two whose upper-case form is an ASCII letter. -/
def Foreign (char : Char) : Prop :=
  ∃ code, 0x80 ≤ code ∧ code ≠ 0x131 ∧ code ≠ 0x17F ∧ char = Char.ofNat code

private theorem foreign_replacement :
    Foreign replacement := ⟨0xFFFD, by decide, by decide, by decide, rfl⟩

/-- An open character that takes three or four bytes: once the next of them is read, it has at
least the bits that shorter forms cannot have. -/
structure Open.Long (part : Open) : Prop where
  low : 0x80 ≤ part.low.toNat
  three : 0x10 ≤ part.bits * 64 + (part.low.toNat - 0x80)
  two : part.owed ≤ 2 → 0x20 ≤ part.bits * 64 + (part.low.toNat - 0x80)
  one : part.owed ≤ 1 → 0x800 ≤ part.bits * 64 + (part.low.toNat - 0x80)

/-- What a byte beyond ASCII does where a character begins: it is ill-formed, or it leads a
character of two bytes, or one of more. -/
inductive Leading (byte : UInt8) : List Char × Option Open → Prop where
  | broken : Leading byte ([replacement], none)
  | pair (least : 0xC2 ≤ byte.toNat) :
      Leading byte ([], some ⟨1, 0x80, 0xBF, byte.toNat - 0xC0⟩)
  | long {part} (long : Open.Long part) : Leading byte ([], some part)

variable {part : Open} {byte : UInt8} {rest : Bytes}

def BeginsForeign (state : Option Open) (bytes : Bytes) : Prop :=
  ∃ first later, decodeFrom [] state bytes = first :: later ∧ Foreign first

private theorem beginsForeign_of_broken (broken : ¬ (part.low ≤ byte ∧ byte ≤ part.high))
    (rest : Bytes) :
    BeginsForeign (some part) (byte :: rest) := by
  rw [BeginsForeign, decodeFrom_cons, step, if_neg broken]
  exact ⟨_, _, rfl, foreign_replacement⟩

theorem Open.Long.beginsForeign (long : part.Long) (bytes : Bytes) :
    BeginsForeign (some part) bytes := by
  -- Each byte that continues the character shifts its bits by six, so they stay large enough.
  induction bytes generalizing part with
  | nil => exact ⟨replacement, [], rfl, foreign_replacement⟩
  | cons byte rest ih =>
    by_cases continues : part.low ≤ byte ∧ byte ≤ part.high
    · have above : part.low.toNat ≤ byte.toNat := UInt8.le_iff_toNat_le.mp continues.1
      obtain ⟨low, three, two, one⟩ := long
      rw [BeginsForeign, decodeFrom_cons]
      by_cases complete : part.owed ≤ 1
      · have wide := one complete
        simp only [step, continues, and_self, if_true, complete, List.cons_append]
        exact ⟨_, _, rfl, _, by omega, by omega, by omega, rfl⟩
      · simp only [step, continues, and_self, if_true, complete, if_false, List.nil_append]
        have next : (0x80 : UInt8).toNat = 0x80 := rfl
        refine ih ⟨Nat.le_refl _, ?_, fun _ => ?_, fun single => ?_⟩
        · simp only [next]
          omega
        · simp only [next]
          omega
        · have wide := two (Nat.le_add_of_sub_le single)
          simp only [next]
          omega
    · exact beginsForeign_of_broken continues rest

private theorem Open.long_of_bits {owed bits : Nat} (high : UInt8) (several : 1 < owed)
    (some : 0 < bits) :
    Open.Long ⟨owed, 0x80, high, bits⟩ where
  low := Nat.le_refl 0x80
  three := by simp only; omega
  two _ := by simp only; omega
  one single := absurd single (Nat.not_le.mpr several)

theorem leading_lead (beyond : 0x80 ≤ byte.toNat) : Leading byte (lead byte) := by
  have outside : ∀ {bound : UInt8}, ¬ byte < bound → bound.toNat ≤ byte.toNat := fun least =>
    UInt8.le_iff_toNat_le.mp (UInt8.not_lt.mp least)
  have above : ∀ {bound : UInt8}, ¬ byte < bound → byte ≠ bound → 0 < byte.toNat - bound.toNat :=
    fun least differ => Nat.sub_pos_of_lt (Nat.lt_of_le_of_ne (outside least) fun same =>
      differ (UInt8.toNat_inj.mp same.symm))
  unfold lead
  split
  · rename_i ascii
    exact absurd (UInt8.lt_iff_toNat_lt.mp ascii) (Nat.not_lt.mpr beyond)
  split
  · exact .broken
  rename_i least
  split
  · exact .pair (outside least)
  rename_i three
  split
  · exact .long ⟨by decide, by decide, by decide, by decide⟩
  rename_i notFirst
  split
  · exact .long (Open.long_of_bits _ (by decide) (by decide))
  split
  · exact .long (Open.long_of_bits _ (by decide) (by simpa using above three notFirst))
  rename_i four
  split
  · exact .long ⟨by decide, by decide, by decide, by decide⟩
  rename_i notFirst
  split
  · exact .long (Open.long_of_bits _ (by decide) (by simpa using above four notFirst))
  split
  · exact .long (Open.long_of_bits _ (by decide) (by decide))
  · exact .broken

private theorem pair_unique {first second lead tail : UInt8} (continues : 0x80 ≤ second ∧ second ≤ 0xBF)
    (least : 0xC0 ≤ first.toNat)
    (low : 0x80 ≤ tail.toNat ∧ tail.toNat ≤ 0xBF) (high : 0xC0 ≤ lead.toNat)
    (same : (first.toNat - 0xC0) * 64 + (second.toNat - 0x80) =
      (lead.toNat - 0xC0) * 64 + (tail.toNat - 0x80)) : first = lead ∧ second = tail := by
  have lower : 0x80 ≤ second.toNat := UInt8.le_iff_toNat_le.mp continues.1
  have upper : second.toNat ≤ 0xBF := UInt8.le_iff_toNat_le.mp continues.2
  exact ⟨UInt8.toNat_inj.mp (by omega), UInt8.toNat_inj.mp (by omega)⟩

/-- Behind a byte beyond ASCII stands a foreign character, but for the letters `ſ` and `ı`. -/
theorem beginsForeign_of_beyond {bytes : Bytes} (beyond : 0x80 ≤ byte.toNat)
    (longS : ∀ rest, byte :: bytes ≠ 0xC5 :: 0xBF :: rest)
    (dotlessI : ∀ rest, byte :: bytes ≠ 0xC4 :: 0xB1 :: rest) :
    BeginsForeign none (byte :: bytes) := by
  have leading := leading_lead beyond
  rw [BeginsForeign, decodeFrom_cons, step]
  generalize lead byte = led at leading
  cases leading with
  | broken => exact ⟨_, _, rfl, foreign_replacement⟩
  | long long => exact long.beginsForeign bytes
  | pair least =>
    cases bytes with
    | nil => exact ⟨_, _, rfl, foreign_replacement⟩
    | cons second rest =>
      by_cases continues : 0x80 ≤ second ∧ second ≤ 0xBF
      · rw [decodeFrom_cons]
        simp only [step, continues, and_self, if_true, Nat.le_refl]
        refine ⟨_, _, rfl, _, by omega, ?_, ?_, rfl⟩
        · intro same
          obtain ⟨rfl, rfl⟩ := @pair_unique byte second 0xC4 0xB1 continues (by omega)
            (by decide) (by decide) same
          exact dotlessI rest rfl
        · intro same
          obtain ⟨rfl, rfl⟩ := @pair_unique byte second 0xC5 0xBF continues (by omega)
            (by decide) (by decide) same
          exact longS rest rfl
      · exact beginsForeign_of_broken continues rest

theorem decodeFrom_longS (rest : Bytes) :
    decodeFrom [] none (0xC5 :: 0xBF :: rest) = 'ſ' :: decodeFrom [] none rest := by
  rw [decodeFrom_cons, decodeFrom_cons]
  rfl

theorem decodeFrom_dotlessI (rest : Bytes) :
    decodeFrom [] none (0xC4 :: 0xB1 :: rest) = 'ı' :: decodeFrom [] none rest := by
  rw [decodeFrom_cons, decodeFrom_cons]
  rfl

end Utf8

namespace Text

/-- Capital letters of ASCII among which no upper-case form of several characters stands. -/
structure Capitals (letters : Bytes) : Prop where
  ascii : ∀ letter ∈ letters, 0x41 ≤ letter.toNat ∧ letter.toNat ≤ 0x5A
  whole : ∀ entry ∈ caseExpansions, ¬ entry.2.map Char.ofNat <:+: letters.map ofByte

variable {letters : Bytes} {char : Char}

theorem Capitals.tail {first : UInt8} (capitals : Capitals (first :: letters)) : Capitals letters where
  ascii letter member := capitals.ascii letter (List.mem_cons_of_mem _ member)
  whole entry member inside :=
    capitals.whole entry member (inside.trans (List.suffix_cons _ _).isInfix)

theorem Capitals.toNat (capitals : Capitals letters) (member : char ∈ letters.map ofByte) :
    0x41 ≤ char.toNat ∧ char.toNat ≤ 0x5A := by
  obtain ⟨letter, inside, rfl⟩ := List.mem_map.mp member
  rw [toNat_ofByte]
  exact capitals.ascii letter inside

private theorem caseRuns_beyond : ∀ run ∈ caseRuns, 0x80 ≤ run.first + run.shift ∨
    run.first = run.last ∧ (run.first = 0x131 ∨ run.first = 0x17F) := by
  decide +kernel

/-- No foreign character has capital letters for its upper-case form. -/
theorem Capitals.ne_upperChars (capitals : Capitals letters) (foreign : Utf8.Foreign char)
    (later : List Char) : upperChars char ++ later ≠ letters.map ofByte := by
  obtain ⟨code, beyond, notDotlessI, notLongS, rfl⟩ := foreign
  have outside : ∀ other, (other < 0x41 ∨ 0x80 ≤ other) →
      Char.ofNat other :: later ≠ letters.map ofByte := by
    intro other apart same
    have within := capitals.toNat (same ▸ List.mem_cons_self)
    rcases toNat_ofNat_cases other with toNat | toNat <;> rw [toNat] at within <;> omega
  -- A number that is no code point gives the null character, which is not a letter either.
  rcases toNat_ofNat_cases code with toNat | toNat
  · rw [upperChars, toNat, if_neg (Nat.not_lt.mpr beyond)]
    split
    · rename_i codes found
      obtain ⟨before, behind, table, _⟩ := List.lookup_eq_some_iff.mp found
      intro same
      refine capitals.whole (code, codes) (by simp [table]) ?_
      rw [← same]
      exact (List.prefix_append _ later).isInfix
    split
    · rename_i upper found
      obtain ⟨run, member, lies⟩ := List.exists_of_findSome?_eq_some found
      unfold CaseRun.upper? at lies
      split at lies
      · rename_i within
        cases lies
        refine outside _ (.inr ?_)
        have shifted := caseRuns_beyond run member
        omega
      · cases lies
    · exact outside code (.inr beyond)
  · have null : Char.ofNat code = ofByte 0 := by
      rw [← Char.ofNat_toNat (Char.ofNat code), toNat]
      rfl
    rw [null, upperChars_ofByte (by decide)]
    exact outside 0 (.inl (by decide))

end Text

end RespKeyspace
