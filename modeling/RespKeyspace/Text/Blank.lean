import RespKeyspace.Bytes

/-! Unicode white space, and the words it separates. -/

namespace RespKeyspace.Text

/-- The property White_Space. -/
def isBlank (char : Char) : Bool :=
  let code := char.toNat
  (0x09 ≤ code && code ≤ 0x0D) || code == 0x20 || code == 0x85 || code == 0xA0 ||
    code == 0x1680 || (0x2000 ≤ code && code ≤ 0x200A) || code == 0x2028 ||
    code == 0x2029 || code == 0x202F || code == 0x205F || code == 0x3000

/-- Split with the word in hand held newest character first. -/
def wordsAfter (word : List Char) : List Char → List (List Char)
  | [] => if word.isEmpty then [] else [word.reverse]
  | char :: rest =>
    if isBlank char then
      if word.isEmpty then wordsAfter [] rest else word.reverse :: wordsAfter [] rest
    else wordsAfter (char :: word) rest

/-- The maximal runs of characters that are not blank. -/
def words (text : String) : List String := (wordsAfter [] text.toList).map String.ofList

end RespKeyspace.Text
