/-
  Integers as people write them: blanks, a sign, decimal digits of any script with single
  underscores between them, blanks.

  * `readInteger` reads one; `isNumeric` is the weaker test that a text consists of digits but
    for signs in front and blanks around;
  * `NumeralError` says why a text is no integer, or an integer has no text; numerals are limited to
    `digitLimit` digits.
-/
import FileTags.Text.Blank
import FileTags.Text.Digit
import FileTags.Text.Quoted

namespace FileTags.Number

open Text

/-- The number of digits that a numeral may have. -/
def digitLimit : Nat := 4300

/-- Why a text is no integer. -/
inductive NumeralError where
  | malformed (text : List Char)
  | tooLong (digits : Nat)
  /-- An integer has too many digits to be written as a numeral. -/
  | tooLarge
deriving DecidableEq

/-- The number of characters of a text in quotes that a message shows. -/
def shownLength : Nat := 200

protected def NumeralError.message : NumeralError → String
  | malformed text =>
    "invalid literal for int() with base 10: " ++
      String.ofList ((quotedWith isPrintable text).take shownLength)
  | tooLong digits =>
    s!"Exceeds the limit ({digitLimit} digits) for integer string conversion: value has " ++
      s!"{digits} digits; use sys.set_int_max_str_digits() to increase the limit"
  | tooLarge =>
    s!"Exceeds the limit ({digitLimit} digits) for integer string conversion; " ++
      "use sys.set_int_max_str_digits() to increase the limit"

/-- Whether an integer has few enough digits to be written as a numeral. -/
def hasNumeral (n : Int) : Bool := n.natAbs < Nat.pow 10 digitLimit

/-- The blanks that may stand around a numeral: all but the four information separators. -/
def isMargin (c : Char) : Bool := isBlank c && !(0x1c ≤ c.toNat && c.toNat ≤ 0x1f)

/-- The digits at the start of a text with what follows them; `after` says whether a digit stands
    just before. There are none if an underscore, or the end of the digits, has no digit before
    it. -/
def scanDigits : Bool → List Char → Option (List Nat × List Char)
  | after, [] => if after then some ([], []) else none
  | after, c :: cs =>
    match decimalValue? c with
    | some d => (scanDigits true cs).map fun (ds, rest) => (d :: ds, rest)
    | none =>
      if !after then none
      else if c = '_' then scanDigits false cs
      else some ([], c :: cs)

/-- Whether a text starts with a minus, and what follows its sign. -/
def takeSign : List Char → Bool × List Char
  | '-' :: cs => (true, cs)
  | '+' :: cs => (false, cs)
  | cs => (false, cs)

/-- The integer that a text denotes. -/
def readInteger (text : List Char) : Except NumeralError Int :=
  let (negative, body) := takeSign (text.dropWhile isMargin)
  match scanDigits false body with
  | none => .error (.malformed text)
  | some (ds, rest) =>
    if digitLimit < ds.length then .error (.tooLong ds.length)
    else if !rest.all isMargin then .error (.malformed text)
    else .ok (if negative then -Int.ofNat (ofDigits 10 ds) else Int.ofNat (ofDigits 10 ds))

/-- Whether a text is made of digits, but for any signs in front and blanks around. -/
def isNumeric (text : List Char) : Bool :=
  let body := (strip text).dropWhile (fun c => c = '+' || c = '-')
  !body.isEmpty && body.all isDigit

end FileTags.Number
