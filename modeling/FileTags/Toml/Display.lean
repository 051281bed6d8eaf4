/-
  Values of documents as error messages show them.

  Strings stand in quotes, arrays in brackets, tables in braces.  A real has the fewest digits that
  are read as the same double: without an exponent from a ten-thousandth up to ten to the power
  sixteen.  Dates and times are shown by their parts, and seconds only where there are any.

  * `Value.display` shows a value, `Real.display` a real;
  * `Value.isDisplayable`: a value with an integer of too many digits is not shown.
-/
import FileTags.Number.Double
import FileTags.Number.Numeral
import FileTags.Toml.Value
import FileTags.Text.Blank
import FileTags.Text.Quoted

namespace FileTags.Toml

open Text Number

/-! ## Reals -/

/-- Digits with a point after the digit of the power of ten 0, or with an exponent. -/
def placeDigits (digits : List Char) (lead : Int) : List Char :=
  if -4 ≤ lead ∧ lead < 16 then
    if lead < 0 then '0' :: '.' :: (List.replicate (lead.natAbs - 1) '0' ++ digits)
    else
      let whole := digits.take (lead.toNat + 1)
      let rest := digits.drop (lead.toNat + 1)
      whole ++ List.replicate (lead.toNat + 1 - whole.length) '0' ++
        '.' :: (if rest.isEmpty then ['0'] else rest)
  else
    digits.take 1 ++ (if digits.length ≤ 1 then [] else '.' :: digits.drop 1) ++
      'e' :: (if lead < 0 then '-' else '+') :: padLeft '0' 2 (decimal lead.natAbs)

/-- A double in the fewest digits. -/
def displayDouble (x : Double) : List Char :=
  let (n, place) := x.shortest
  let digits := decimal n
  placeDigits (dropEnd (· = '0') digits) (place + (digits.length - 1))

/-- The number of decimal places to either side beyond which there are no doubles. -/
def decimalRange : Int := 400

/-- The magnitude of a decimal, unless it is beyond all doubles. -/
def magnitude? (mantissa : Nat) (exponent : Int) : Option Double :=
  let lead := exponent + (decimal mantissa).length
  if mantissa = 0 ∨ lead < -decimalRange then some ⟨0, 0⟩
  else if decimalRange < lead then none
  else if exponent < 0 then Double.ofRatio? mantissa (Nat.pow 10 exponent.natAbs)
  else Double.ofRatio? (mantissa * Nat.pow 10 exponent.natAbs) 1

/-- A minus in front of what is negative. -/
def withSign (negative : Bool) (cs : List Char) : List Char := if negative then '-' :: cs else cs

/-- A real in the fewest digits. -/
def Real.display : Real → List Char
  | .notANumber => ['n', 'a', 'n']
  | .infinite negative => withSign negative ['i', 'n', 'f']
  | .decimal negative mantissa exponent =>
    withSign negative (match magnitude? mantissa exponent with
      | none => ['i', 'n', 'f']
      | some x => if x.significand = 0 then ['0', '.', '0'] else displayDouble x)

/-! ## Dates and times -/

/-- The parts of a time that are shown: seconds and their millionths only if they count. -/
def Time.parts (t : Time) : List Nat :=
  if t.microsecond ≠ 0 then [t.hour, t.minute, t.second, t.microsecond]
  else if t.second ≠ 0 then [t.hour, t.minute, t.second]
  else [t.hour, t.minute]

/-- The parts of a date. -/
def Date.parts (d : Date) : List Nat := [d.year, d.month, d.day]

/-- A name with arguments in parentheses. -/
def displayCall (name : String) (arguments : List String) : String :=
  name ++ "(" ++ ", ".intercalate arguments ++ ")"

/-- An offset from the common time; a negative one counts up from the day before. -/
def displayOffset (minutes : Int) : String :=
  let seconds := minutes * 60
  let parts :=
    if seconds < 0 then [s!"days=-1", s!"seconds={seconds + 86400}"] else [s!"seconds={seconds}"]
  displayCall "datetime.timezone" [displayCall "datetime.timedelta" parts]

/-- What a time is counted from. -/
def Zone.arguments : Zone → List String
  | .here => []
  | .offset minutes =>
    ["tzinfo=" ++ if minutes = 0 then "datetime.timezone.utc" else displayOffset minutes]

/-! ## Values -/

mutual

/-- A value as a text. -/
def Value.display : Value → String
  | .string s => quoted s
  | .integer n => toString n
  | .real x => String.ofList x.display
  | .boolean b => if b then "True" else "False"
  | .date d => displayCall "datetime.date" (d.parts.map toString)
  | .time t => displayCall "datetime.time" (t.parts.map toString)
  | .dateTime d t zone =>
    displayCall "datetime.datetime" ((d.parts ++ t.parts).map toString ++ zone.arguments)
  | .array items => "[" ++ ", ".intercalate (displayItems items) ++ "]"
  | .table members => "\x7b" ++ ", ".intercalate (displayMembers members) ++ "\x7d"

/-- The items of an array as texts. -/
def displayItems : List Value → List String
  | [] => []
  | item :: items => item.display :: displayItems items

/-- The members of a table as texts. -/
def displayMembers : List (String × Value) → List String
  | [] => []
  | (key, value) :: members => (quoted key ++ ": " ++ value.display) :: displayMembers members

end

mutual

/-- Whether a value can be shown: all integers in it have numerals. -/
def Value.isDisplayable : Value → Bool
  | .integer n => hasNumeral n
  | .array items => areDisplayable items
  | .table members => membersAreDisplayable members
  | _ => true

/-- Whether the items of an array can be shown. -/
def areDisplayable : List Value → Bool
  | [] => true
  | item :: items => item.isDisplayable && areDisplayable items

/-- Whether the members of a table can be shown. -/
def membersAreDisplayable : List (String × Value) → Bool
  | [] => true
  | (_, value) :: members => value.isDisplayable && membersAreDisplayable members

end

end FileTags.Toml
