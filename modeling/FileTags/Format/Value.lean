/-
  Values written by a format specification.

  A text is cut to the precision and set into the width.  An integer is written in base ten, two,
  eight or sixteen, as the character with its code point, or as the nearest double: with an
  exponent, with decimal places, with whichever of the two is short, or as a percentage.

  * `formatText` and `formatInteger` write a value or say why they cannot;
  * `formatField` writes a text as a text, and as the integer it denotes only where the
    specification does not fit texts; the empty specification leaves it as it is.
-/
import FileTags.Format.Spec
import FileTags.Number.Grouping
import FileTags.Number.Double

namespace FileTags.Format

open Text Number

/-! ## Setting into a width -/

/-- Characters set into a width; `lead` is what comes before a fill between sign and digits. -/
def pad (fill : Char) (width : Nat) (align : Align) (lead body : List Char) : List Char :=
  let missing := width - (lead.length + body.length)
  let fills (n : Nat) := List.replicate n fill
  match align with
  | .left => lead ++ body ++ fills missing
  | .right => fills missing ++ lead ++ body
  | .center => fills (missing / 2) ++ lead ++ body ++ fills (missing - missing / 2)
  | .afterSign => lead ++ fills missing ++ body

/-! ## Texts -/

/-- The first fault of a specification for texts. -/
def textFault? (s : Spec) : Option Fault :=
  let type := s.type.getD Kind.text.defaultType
  if type ≠ 's' then some (.unknownType type .text)
  else match s.sign with
    | some .space => some .spaceInText
    | some _ => some .signInText
    | none =>
      if s.plainZero then some .plainZeroInText
      else if s.alternate then some .alternateInText
      else if s.alignOr .left = .afterSign then some .alignmentInText
      else none

/-- A text set into a width by a specification. -/
def layoutText (s : Spec) (text : List Char) : List Char :=
  pad s.fillChar s.leastWidth (s.alignOr .left) [] (s.precision.elim text text.take)

/-- A text written by a specification. -/
def formatText (spec text : List Char) : Except Fault (List Char) :=
  match Spec.parse .text spec with
  | .error e => .error e
  | .ok s =>
    match textFault? s with
    | some e => .error e
    | none => .ok (layoutText s text)

/-! ## Parts of a number -/

/-- A number before it is set into a width. -/
structure Parts where
  negative : Bool
  /-- What marks the base, between sign and digits. -/
  base : List Char
  /-- The digits that are grouped. -/
  whole : List Char
  /-- What follows them. -/
  rest : List Char
deriving DecidableEq

/-- The sign in front of a number. -/
def signChars (rule : Option SignRule) (negative : Bool) : List Char :=
  if negative then ['-']
  else match rule with
    | some .plus => ['+']
    | some .space => [' ']
    | _ => []

/-- The groups of a specification. -/
def grouping? (s : Spec) : Option Grouping :=
  s.separator.map fun c => ⟨if groupedByFour (s.type.getD 'd') then 4 else 3, c⟩

/-- A number set into a width: zeros that fill it after the sign are digits and are grouped. -/
def layoutNumber (s : Spec) (n : Parts) : List Char :=
  let lead := signChars s.sign n.negative ++ n.base
  let align := s.alignOr .right
  let width :=
    if s.fillChar = '0' ∧ align = .afterSign then s.leastWidth - (lead.length + n.rest.length)
    else 0
  let whole := if n.whole.isEmpty then [] else grouped (grouping? s) width n.whole
  pad s.fillChar s.leastWidth align lead (whole ++ n.rest)

/-! ## Characters and bases -/

/-- Whether a code point is half of a surrogate pair, which is no character by itself. -/
def isSurrogate (n : Nat) : Bool := 0xD800 ≤ n && n < 0xE000

/-- The character with a code point.  No text holds half of a surrogate pair: a stand-in marks its
    place, and what is said of such a text is void. -/
def charOfCode (n : Nat) : Char := if isSurrogate n then '\ufffd' else Char.ofNat n

/-- The parts of a number that is written as a character. -/
def characterParts (s : Spec) (n : Int) : Except Failure Parts :=
  if s.sign.isSome then .error (.fault .signInCharacter)
  else if s.alternate then .error (.fault .alternateInCharacter)
  else if n < -0x8000000000000000 ∨ 0x8000000000000000 ≤ n then .error (.overflow .word)
  else if n < 0 ∨ 0x110000 ≤ n then .error (.overflow .codePoint)
  else .ok ⟨false, [], [], [charOfCode n.toNat]⟩

/-- The parts of a number in a base whose mark is the letter `mark`. -/
def baseParts (s : Spec) (base : Nat) (mark : Char) (n : Int) : Parts where
  negative := n < 0
  base := if s.alternate then ['0', mark] else []
  whole := Nat.toDigits base n.natAbs
  rest := []

/-- The parts of a number in base ten. -/
def decimalParts (n : Int) : Parts := ⟨n < 0, [], decimal n.natAbs, []⟩

/-- The parts with capital letters. -/
def Parts.capital (n : Parts) : Parts :=
  { n with base := n.base.map Char.toUpper, whole := n.whole.map Char.toUpper,
           rest := n.rest.map Char.toUpper }

/-! ## Doubles -/

/-- A point and decimals; the point stands alone only in the alternate form. -/
def fraction (s : Spec) (decimals : List Char) : List Char :=
  if decimals.isEmpty ∧ !s.alternate then [] else '.' :: decimals

/-- An exponent of at least two digits. -/
def exponent (power : Nat) : List Char := 'e' :: '+' :: padLeft '0' 2 (decimal power)

/-- A magnitude with decimal places, all of them zero. -/
def fixedParts (s : Spec) (negative : Bool) (places m : Nat) : Parts :=
  ⟨negative, [], decimal m, fraction s (List.replicate places '0')⟩

/-- A magnitude with one digit before the point, some behind it, and an exponent. -/
def scientificParts (s : Spec) (negative : Bool) (places m : Nat) : Parts :=
  let (ds, power) := significant (places + 1) m
  ⟨negative, [], ds.take 1, fraction s (ds.drop 1) ++ exponent power⟩

/-- The digits that a short form shows: zeros at the end only in the alternate form. -/
def shownDigits (s : Spec) (ds : List Char) : List Char :=
  if s.alternate then ds else dropEnd (· = '0') ds

/-- A magnitude to some significant digits, without an exponent if they reach the last digit
    before the point. -/
def generalParts (s : Spec) (negative : Bool) (count m : Nat) : Parts :=
  let (ds, power) := significant count m
  if power < count then
    ⟨negative, [], ds.take (power + 1), fraction s (shownDigits s (ds.drop (power + 1)))⟩
  else ⟨negative, [], ds.take 1, fraction s (shownDigits s (ds.drop 1)) ++ exponent power⟩

/-- A hundredfold magnitude with decimal places and a percent sign. -/
def percentParts (s : Spec) (negative : Bool) (places m : Nat) : Parts :=
  match roundToDouble? (100 * m) with
  | some p =>
    let parts := fixedParts s negative places p
    { parts with rest := parts.rest ++ ['%'] }
  | none => ⟨negative, [], [], "inf%".toList⟩

/-- The largest precision for doubles. -/
def precisionLimit : Nat := 0x7fffffff

/-- The number of decimal places when none is given. -/
def defaultPrecision : Nat := 6

/-- The parts of a number that is written as the nearest double. -/
def doubleParts (s : Spec) (type : Char) (n : Int) : Except Failure Parts :=
  match roundToDouble? n.natAbs with
  | none => .error (.overflow .double)
  | some m =>
    let precision := s.precision.getD defaultPrecision
    if precisionLimit < precision then .error (.fault .precisionTooBig)
    else .ok (match type with
      | 'e' => scientificParts s (n < 0) precision m
      | 'E' => (scientificParts s (n < 0) precision m).capital
      | 'g' => generalParts s (n < 0) (max 1 precision) m
      | 'G' => (generalParts s (n < 0) (max 1 precision) m).capital
      | '%' => percentParts s (n < 0) precision m
      | _ => fixedParts s (n < 0) precision m)

/-! ## Integers -/

/-- The presentations of an integer as a double. -/
def isDoubleType (type : Char) : Bool := decide (type ∈ ['e', 'E', 'f', 'F', 'g', 'G', '%'])

/-- The presentations of an integer as such. -/
def isIntegerType (type : Char) : Bool := decide (type ∈ ['b', 'c', 'd', 'o', 'x', 'X', 'n'])

/-- The parts of a number that is written as an integer. -/
def integerParts (s : Spec) (type : Char) (n : Int) : Except Failure Parts :=
  if s.precision.isSome then .error (.fault .precisionInInteger)
  else if s.plainZero then .error (.fault .plainZeroInInteger)
  else match type with
    | 'c' => characterParts s n
    | 'b' => .ok (baseParts s 2 'b' n)
    | 'o' => .ok (baseParts s 8 'o' n)
    | 'x' => .ok (baseParts s 16 'x' n)
    | 'X' => .ok (baseParts s 16 'x' n).capital
    | _ => .ok (decimalParts n)

/-- The parts of a number in a presentation. -/
def numberParts (s : Spec) (type : Char) (n : Int) : Except Failure Parts :=
  if isIntegerType type then integerParts s type n
  else if isDoubleType type then doubleParts s type n
  else .error (.fault (.unknownType type .integer))

/-- An integer written by a specification. -/
def formatInteger (spec : List Char) (n : Int) : Except Failure (List Char) :=
  match Spec.parse .integer spec with
  | .error e => .error (.fault e)
  | .ok s => (numberParts s (s.type.getD Kind.integer.defaultType) n).map (layoutNumber s)

/-! ## Fields -/

/-- A text written by a specification for texts or else, if it is made of digits, as the integer
    it denotes. -/
def formatField (spec text : List Char) : Except Failure (List Char) :=
  if spec.isEmpty then .ok text
  else match formatText spec text with
    | .ok out => .ok out
    | .error e =>
      if !isNumeric text then .error (.fault e)
      else match readInteger text with
        | .error e => .error (.fault (.numeral e))
        | .ok n => formatInteger spec n

end FileTags.Format
