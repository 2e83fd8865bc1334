import RespKeyspace.Proofs.Link.Announcement

/-! Words as they stand in a text: white space parts them and may surround them, and the words of
a text are all that is not white space. -/

namespace RespKeyspace.Text

def Blank (chars : List Char) : Prop := ∀ char ∈ chars, isBlank char = true

/-- Words as they stand in a text, the first of them perhaps behind white space. -/
inductive Spaced : List Char → List String → Prop where
  | none {chars} (blank : Blank chars) : Spaced chars []
  | last {before word} (blank : Blank before) (isWord : IsWord word) :
      Spaced (before ++ word.toList) [word]
  | more {before word separator rest words} (blank : Blank before) (isWord : IsWord word)
      (apart : isBlank separator = true) (later : Spaced rest words) :
      Spaced (before ++ word.toList ++ separator :: rest) (word :: words)

variable {text word : String} {words : List String} {chars held rest : List Char} {char : Char}

theorem blank_nil : Blank [] := List.forall_mem_nil _

theorem Blank.cons (blank : isBlank char = true) (later : Blank rest) : Blank (char :: rest) :=
  List.forall_mem_cons.mpr ⟨blank, later⟩

private theorem isWord_ofList (filled : held ≠ []) (clear : held.any isBlank = false) :
    IsWord (String.ofList held.reverse) := by
  refine ⟨?_, ?_⟩
  · intro empty
    have none := congrArg String.toList empty
    simp [filled] at none
  · simpa using clear

private theorem Spaced.cons (blank : isBlank char = true) (spaced : Spaced rest words) :
    Spaced (char :: rest) words := by
  cases spaced with
  | none all => exact .none (all.cons blank)
  | last before isWord => exact .last (before.cons blank) isWord
  | more before isWord apart later => exact .more (before.cons blank) isWord apart later

private theorem spaced_wordsAfter (clear : held.any isBlank = false) :
    Spaced (held.reverse ++ chars) ((wordsAfter held chars).map String.ofList) := by
  fun_induction wordsAfter held chars with
  | case1 held none =>
    rw [List.isEmpty_iff.mp none]
    exact .none blank_nil
  | case2 held some =>
    have isWord := isWord_ofList (by simpa using some) clear
    simpa using Spaced.last blank_nil isWord
  | case3 held char rest blank none ih =>
    rw [List.isEmpty_iff.mp none]
    exact (ih rfl).cons blank
  | case4 held char rest blank some ih =>
    have isWord := isWord_ofList (by simpa using some) clear
    simpa using Spaced.more blank_nil isWord blank (ih rfl)
  | case5 held char rest solid ih =>
    have whole := ih (by simpa [solid] using clear)
    simpa using whole

private theorem Blank.wordsAfter (blank : Blank chars) (rest : List Char) :
    Text.wordsAfter [] (chars ++ rest) = Text.wordsAfter [] rest := by
  induction chars with
  | nil => rfl
  | cons char later ih =>
    rw [Blank, List.forall_mem_cons] at blank
    simpa [Text.wordsAfter, blank.1] using ih blank.2

private theorem wordsAfter_word (isWord : IsWord word)
    (ends : rest = [] ∨ ∃ separator later, rest = separator :: later ∧ isBlank separator = true) :
    wordsAfter [] (word.toList ++ rest) = word.toList :: wordsAfter [] rest := by
  have filled : word.toList ≠ [] := by simpa using isWord.1
  rw [wordsAfter_append [] isWord.2]
  rcases ends with rfl | ⟨separator, later, rfl, apart⟩
  · simp [wordsAfter, filled]
  · simp [wordsAfter, apart, filled]

private theorem Spaced.wordsAfter (spaced : Spaced chars words) :
    (Text.wordsAfter [] chars).map String.ofList = words := by
  induction spaced with
  | none blank => simpa [Text.wordsAfter] using congrArg (List.map String.ofList) (blank.wordsAfter [])
  | last blank isWord =>
    have split := wordsAfter_word isWord (.inl rfl)
    rw [List.append_nil] at split
    rw [blank.wordsAfter, split]
    simp [Text.wordsAfter]
  | more blank isWord apart later ih =>
    rw [List.append_assoc, blank.wordsAfter, wordsAfter_word isWord (.inr ⟨_, _, rfl, apart⟩)]
    simpa [Text.wordsAfter, apart] using ih

/-- The words of a text are those that stand in it. -/
theorem words_eq_iff : Text.words text = words ↔ Spaced text.toList words := by
  constructor
  · rintro rfl
    exact @spaced_wordsAfter text.toList [] rfl
  · exact Spaced.wordsAfter

theorem isWord_of_mem_words (member : word ∈ Text.words text) : IsWord word := by
  have spaced := words_eq_iff.mp (rfl : Text.words text = _)
  generalize Text.words text = words at spaced member
  generalize text.toList = chars at spaced
  induction spaced with
  | none => cases member
  | last _ isWord => exact List.mem_singleton.mp member ▸ isWord
  | more _ isWord _ _ ih =>
    rcases List.mem_cons.mp member with rfl | later
    · exact isWord
    · exact ih later

theorem spaced_singleton_iff : Spaced chars [word] ↔
    IsWord word ∧ ∃ before after,
      chars = before ++ word.toList ++ after ∧ Blank before ∧ Blank after := by
  constructor
  · intro spaced
    cases spaced with
    | last blank isWord => exact ⟨isWord, _, [], (List.append_nil _).symm, blank, blank_nil⟩
    | more blank isWord apart later =>
      cases later with
      | none behind => exact ⟨isWord, _, _, rfl, blank, behind.cons apart⟩
  · rintro ⟨isWord, before, after, rfl, blank, behind⟩
    cases after with
    | nil => simpa using Spaced.last blank isWord
    | cons separator rest =>
      obtain ⟨apart, rest⟩ := List.forall_mem_cons.mp behind
      exact .more blank isWord apart (.none rest)

theorem spaced_pair_iff {other : String} : Spaced chars [word, other] ↔
    IsWord word ∧ IsWord other ∧ ∃ before between after,
      chars = before ++ word.toList ++ between ++ other.toList ++ after ∧
      Blank before ∧ Blank between ∧ Blank after ∧ between ≠ [] := by
  constructor
  · intro spaced
    cases spaced with
    | @more before _ separator _ _ blank isWord apart later =>
      obtain ⟨second, between, after, rfl, amid, behind⟩ := spaced_singleton_iff.mp later
      exact ⟨isWord, second, before, separator :: between, after, by simp, blank, amid.cons apart,
        behind, List.cons_ne_nil _ _⟩
  · rintro ⟨first, second, before, between, after, rfl, blank, amid, behind, some⟩
    obtain ⟨separator, rest, rfl⟩ := List.exists_cons_of_ne_nil some
    obtain ⟨apart, rest⟩ := List.forall_mem_cons.mp amid
    have later := spaced_singleton_iff.mpr ⟨second, _, after, rfl, rest, behind⟩
    simpa using Spaced.more blank first apart later

/-- A text has two words exactly if it consists of them, with white space between them and perhaps
around them. -/
theorem words_eq_pair_iff {first second : String} : Text.words text = [first, second] ↔
    IsWord first ∧ IsWord second ∧ ∃ before between after,
      text = before ++ first ++ between ++ second ++ after ∧
      Blank before.toList ∧ Blank between.toList ∧ Blank after.toList ∧ between ≠ "" := by
  rw [words_eq_iff, spaced_pair_iff]
  refine and_congr_right fun _ => and_congr_right fun _ => ?_
  constructor
  · rintro ⟨before, between, after, whole, blank, amid, behind, some⟩
    refine ⟨String.ofList before, String.ofList between, String.ofList after, ?_, ?_⟩
    · apply String.toList_inj.mp
      simpa using whole
    · simpa using ⟨blank, amid, behind, some⟩
  · rintro ⟨before, between, after, rfl, blank, amid, behind, some⟩
    exact ⟨before.toList, between.toList, after.toList, by simp, blank, amid, behind,
      by simpa using some⟩

end RespKeyspace.Text
