/-
  Integers as options give them: blanks, a sign, digits, blanks; after a point there may be zeros,
  but nothing else.

  Zeros in front do not count, whatever their number, and neither do underscores among them.
  Further on, single underscores may stand between digits.  Of all these, only blanks may be other
  than ASCII characters.

  * `readIntegral?` reads one;
  * `dropZeros?`, `dropFraction` and `dropUnderscores?` drop what does not count, and leave a text
    alone that has nothing of it (`dropFraction_of_not_mem`, `dropUnderscores?_of_not_mem`).
-/
import FileTags.Number.Numeral
import FileTags.Text.Split

namespace FileTags.Number

open Text

/-! ## What does not count -/

/-- Drops blanks at both ends. -/
def dropMargins (cs : List Char) : List Char := dropEnd isMargin (cs.dropWhile isMargin)

/-- Whether a character is a digit other than zero. -/
def isPositiveDigit (c : Char) : Bool := c.isDigit && c ≠ '0'

/-- What counts after zeros and underscores, the last of which is `last`; of these alone, that one
    counts. -/
def dropMoreZeros? (last : Char) : List Char → Option (List Char)
  | [] => some [last]
  | c :: cs =>
    if c = '0' ∨ c = '_' then dropMoreZeros? c cs
    else if c = '.' then some (last :: c :: cs)
    else if isPositiveDigit c then some (c :: cs)
    else none

/-- Drops zeros in front, where a digit has to be. -/
def dropZeros? : List Char → Option (List Char)
  | [] => none
  | c :: cs =>
    if c = '0' then dropMoreZeros? c cs
    else if isPositiveDigit c then some (c :: cs)
    else none

/-- Drops a point with zeros after it, of which there must be one. -/
def dropFraction (cs : List Char) : List Char :=
  match cs.dropWhile (· ≠ '.') with
  | _ :: z :: zs => if (z :: zs).all (· = '0') then cs.takeWhile (· ≠ '.') else cs
  | _ => cs

/-- Drops underscores, each of which must stand between two other characters. -/
def dropUnderscores? (cs : List Char) : Option (List Char) :=
  let pieces := splitOn '_' cs
  if pieces.any List.isEmpty then none else some pieces.flatten

theorem dropFraction_of_not_mem {cs : List Char} (h : '.' ∉ cs) : dropFraction cs = cs := by
  have : cs.dropWhile (· ≠ '.') = [] := by
    induction cs with
    | nil => rfl
    | cons c cs ih =>
      obtain ⟨hc, hcs⟩ : '.' ≠ c ∧ '.' ∉ cs := by simpa using h
      rw [List.dropWhile_cons, if_pos (by simpa using Ne.symm hc), ih hcs]
  rw [dropFraction, this]

theorem dropUnderscores?_of_not_mem {cs : List Char} (nonempty : cs ≠ []) (h : '_' ∉ cs) :
    dropUnderscores? cs = some cs := by
  simp [dropUnderscores?, splitOn_of_not_mem h, nonempty]

/-! ## What counts -/

/-- The value of an ASCII digit. -/
def asciiValue? (c : Char) : Option Nat := if c.isDigit then some (c.toNat - '0'.toNat) else none

/-- The number that ASCII digits denote, unless there are too many. -/
def readDigits? (cs : List Char) : Option Nat :=
  if cs.isEmpty ∨ digitLimit < cs.length then none else (cs.mapM asciiValue?).map (ofDigits 10)

/-- The integer that a text denotes. -/
def readIntegral? (text : List Char) : Option Int := do
  let (negative, body) := takeSign (dropMargins text)
  let n ← readDigits? (← dropUnderscores? (dropFraction (← dropZeros? body)))
  return if negative then -Int.ofNat n else Int.ofNat n

end FileTags.Number
