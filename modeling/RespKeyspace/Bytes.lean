/-! Byte sequences as lists, the two bytes that end a line, and the two ways a
reader takes bytes off the front: a whole line, or an announced number. -/

namespace RespKeyspace

/-- Bytes in the order they travel. -/
abbrev Bytes := List UInt8

namespace Bytes

def carriageReturn : UInt8 := 0x0D

def lineFeed : UInt8 := 0x0A

def lineEnd : Bytes := [carriageReturn, lineFeed]

def ofText (text : String) : Bytes := text.toUTF8.data.toList

/-- Scan with the line read so far held newest byte first. -/
def splitLineAfter (line : Bytes) : Bytes → Option (Bytes × Bytes)
  | first :: second :: rest =>
    if first = carriageReturn ∧ second = lineFeed then some (line.reverse, rest)
    else splitLineAfter (first :: line) (second :: rest)
  | _ => none

/-- The bytes before the first line end and the bytes behind it; nothing while
no line end has arrived. -/
def splitLine? (bytes : Bytes) : Option (Bytes × Bytes) := splitLineAfter [] bytes

/-- Count bytes off with those already taken held newest first. -/
def splitCountAfter (taken : Bytes) : Nat → Bytes → Option (Bytes × Bytes)
  | 0, rest => some (taken.reverse, rest)
  | _ + 1, [] => none
  | count + 1, byte :: rest => splitCountAfter (byte :: taken) count rest

/-- The first `count` bytes and the bytes behind them; nothing while fewer have
arrived. Only the bytes taken are looked at. -/
def splitCount? (count : Nat) (bytes : Bytes) : Option (Bytes × Bytes) :=
  splitCountAfter [] count bytes

private theorem splitLineAfter_append {line bytes found rest : Bytes}
    (split : splitLineAfter line bytes = some (found, rest)) :
    line.reverse ++ bytes = found ++ lineEnd ++ rest := by
  induction bytes generalizing line with
  | nil => simp [splitLineAfter] at split
  | cons first tail ih =>
    cases tail with
    | nil => simp [splitLineAfter] at split
    | cons second tail =>
      rw [splitLineAfter] at split
      split at split
      · rename_i ended
        obtain ⟨rfl, rfl⟩ := by simpa using split
        simp [lineEnd, ended.1, ended.2]
      · simpa using ih split

theorem splitLine?_append {bytes line rest : Bytes}
    (split : splitLine? bytes = some (line, rest)) : bytes = line ++ lineEnd ++ rest := by
  simpa using splitLineAfter_append split

private theorem splitCountAfter_append {taken bytes found rest : Bytes} {count : Nat}
    (split : splitCountAfter taken count bytes = some (found, rest)) :
    taken.reverse ++ bytes = found ++ rest ∧ found.length = taken.length + count := by
  induction count generalizing taken bytes with
  | zero =>
    obtain ⟨rfl, rfl⟩ := by simpa [splitCountAfter] using split
    simp
  | succ count ih =>
    cases bytes with
    | nil => simp [splitCountAfter] at split
    | cons byte tail =>
      rw [splitCountAfter] at split
      obtain ⟨same, length⟩ := ih split
      exact ⟨by simpa using same, by simp at length; omega⟩

theorem splitCount?_append {bytes found rest : Bytes} {count : Nat}
    (split : splitCount? count bytes = some (found, rest)) :
    bytes = found ++ rest ∧ found.length = count := by
  simpa using splitCountAfter_append split

theorem lineEnd_infix_cons_cons {first second : UInt8} {rest : Bytes} :
    lineEnd <:+: first :: second :: rest ↔
      first = carriageReturn ∧ second = lineFeed ∨ lineEnd <:+: second :: rest := by
  rw [List.infix_cons_iff]
  simp [lineEnd, List.cons_prefix_cons, eq_comm]

theorem not_lineEnd_infix_singleton (byte : UInt8) : ¬ lineEnd <:+: [byte] := by
  intro inside
  have short := inside.length_le
  simp [lineEnd] at short

private theorem splitLineAfter_of_not_infix {taken line : Bytes} (rest : Bytes)
    (within : ¬ lineEnd <:+: line) :
    splitLineAfter taken (line ++ lineEnd ++ rest) = some (taken.reverse ++ line, rest) := by
  induction line generalizing taken with
  | nil => simp [lineEnd, splitLineAfter]
  | cons first tail ih =>
    have later : ¬ lineEnd <:+: tail := fun inside =>
      within (inside.trans (List.suffix_cons first tail).isInfix)
    have here : ∀ second behind, tail ++ lineEnd ++ rest = second :: behind →
        ¬ (first = carriageReturn ∧ second = lineFeed) := by
      rintro second behind split ⟨rfl, rfl⟩
      cases tail with
      | nil => simp [lineEnd, carriageReturn, lineFeed] at split
      | cons next tail =>
        obtain ⟨rfl, _⟩ := by simpa using split
        exact within (lineEnd_infix_cons_cons.mpr (.inl ⟨rfl, rfl⟩))
    cases shape : tail ++ lineEnd ++ rest with
    | nil => simp [lineEnd] at shape
    | cons second behind =>
      have next : splitLineAfter (first :: taken) _ = _ := ih later
      rw [shape] at next
      simp only [List.cons_append, shape, splitLineAfter, here second behind shape, ↓reduceIte]
      simpa using next

private theorem not_infix_of_splitLineAfter {taken bytes line rest : Bytes}
    (clear : ∀ first, bytes.head? = some first → ¬ lineEnd <:+: taken.reverse ++ [first])
    (split : splitLineAfter taken bytes = some (line, rest)) : ¬ lineEnd <:+: line := by
  induction bytes generalizing taken with
  | nil => simp [splitLineAfter] at split
  | cons first tail ih =>
    cases tail with
    | nil => simp [splitLineAfter] at split
    | cons second tail =>
      have before := clear first rfl
      rw [splitLineAfter] at split
      split at split
      · obtain ⟨rfl, rfl⟩ := by simpa using split
        exact fun inside => before (inside.trans (List.prefix_append _ _).isInfix)
      · rename_i differ
        refine ih ?_ split
        intro next same inside
        obtain rfl : second = next := by simpa using same
        rw [List.infix_concat_iff] at inside
        rcases inside with last | inside
        · apply differ
          have ends : [carriageReturn, lineFeed] <:+ taken.reverse ++ [first, second] := by
            simpa [lineEnd] using last
          have same := List.suffix_iff_eq_drop.mp ends
          simp at same
          exact ⟨same.1.symm, same.2.symm⟩
        · exact before (by simpa using inside)

/-- A line is split off exactly at the first line end. -/
theorem splitLine?_eq_some_iff {bytes line rest : Bytes} :
    splitLine? bytes = some (line, rest) ↔
      bytes = line ++ lineEnd ++ rest ∧ ¬ lineEnd <:+: line := by
  constructor
  · intro split
    refine ⟨splitLine?_append split, not_infix_of_splitLineAfter ?_ split⟩
    intro first _
    simpa using not_lineEnd_infix_singleton first
  · rintro ⟨rfl, within⟩
    exact splitLineAfter_of_not_infix rest within

private theorem splitCountAfter_of_append (taken front rest : Bytes) :
    splitCountAfter taken front.length (front ++ rest) = some (taken.reverse ++ front, rest) := by
  induction front generalizing taken with
  | nil => simp [splitCountAfter]
  | cons byte tail ih => simpa [splitCountAfter] using ih (byte :: taken)

/-- A count of bytes is split off exactly if that many are there. -/
theorem splitCount?_eq_some_iff {bytes front rest : Bytes} {count : Nat} :
    splitCount? count bytes = some (front, rest) ↔ bytes = front ++ rest ∧ front.length = count := by
  constructor
  · exact splitCount?_append
  · rintro ⟨rfl, rfl⟩
    exact splitCountAfter_of_append [] front rest

end Bytes

end RespKeyspace
