/-
  Numbers, dates and times of TOML documents.

  An integer is written in base ten with an optional sign, or in base two, eight or sixteen after
  `0b`, `0o` or `0x`; single underscores may stand between digits.  A point or an exponent makes a
  number a real.  A date may be followed by a time, and then by an offset from the common time.

  * `number?`, `moment?` and `special?` read one if the text starts with one, as far as it goes;
  * `Date.isValid`: a date must be in the calendar.
-/
import FileTags.Toml.Value
import FileTags.Toml.Quotes

namespace FileTags.Toml

open Text Number

/-! ## Digits -/

/-- The value of a digit in base ten. -/
def digitValue? (c : Char) : Option Nat := (hexValue? c).filter (· < 10)

/-- The values of the digits that go on a number, with single underscores between them. -/
def moreDigits (value? : Char → Option Nat) : List Char → List Nat × List Char
  | [] => ([], [])
  | c :: cs =>
    match value? c with
    | some d => let (ds, rest) := moreDigits value? cs; (d :: ds, rest)
    | none =>
      match cs with
      | [] => ([], [c])
      | e :: es =>
        if c ≠ '_' then ([], c :: e :: es)
        else match value? e with
          | some d => let (ds, rest) := moreDigits value? es; (d :: ds, rest)
          | none => ([], c :: e :: es)

/-- The values of the digits that a text starts with, if it starts with one. -/
def digits? (value? : Char → Option Nat) : List Char → Option (List Nat × List Char)
  | [] => none
  | c :: cs => (value? c).map fun d => let (ds, rest) := moreDigits value? cs; (d :: ds, rest)

/-- A sign of a text, and what follows it. -/
def takeSign? : List Char → Option Bool × List Char
  | '-' :: cs => (some true, cs)
  | '+' :: cs => (some false, cs)
  | cs => (none, cs)

/-- A number with a sign. -/
def signed (negative : Bool) (n : Nat) : Int := if negative then -Int.ofNat n else Int.ofNat n

/-! ## Numbers -/

/-- The value of a digit in a base up to sixteen. -/
def baseValue? (base : Nat) (c : Char) : Option Nat := (hexValue? c).filter (· < base)

/-- The base that a letter stands for. -/
def baseOf? : Char → Option Nat
  | 'x' => some 16
  | 'o' => some 8
  | 'b' => some 2
  | _ => none

/-- An integer in a base of its own. -/
def baseInteger? : List Char → Option (Value × List Char)
  | '0' :: letter :: cs =>
    (baseOf? letter).bind fun base =>
      (digits? (baseValue? base) cs).map fun (ds, rest) => (.integer (ofDigits base ds), rest)
  | _ => none

/-- The digits before the point: there is no zero in front of others. -/
def wholeDigits? : List Char → Option (List Nat × List Char)
  | '0' :: cs => some ([0], cs)
  | cs => digits? digitValue? cs

/-- The decimals of a real, if a point with digits follows. -/
def decimals : List Char → Option (List Nat) × List Char
  | '.' :: cs =>
    match digits? digitValue? cs with
    | some (ds, rest) => (some ds, rest)
    | none => (none, '.' :: cs)
  | cs => (none, cs)

/-- Whether a letter starts an exponent. -/
def isExponentMark (c : Char) : Bool := c = 'e' || c = 'E'

/-- The exponent of a real, if a mark with digits follows. -/
def exponent : List Char → Option Int × List Char
  | [] => (none, [])
  | c :: cs =>
    if !isExponentMark c then (none, c :: cs)
    else
      let (sign, ds) := takeSign? cs
      match digits? digitValue? ds with
      | some (ds, rest) => (some (signed (sign.getD false) (ofDigits 10 ds)), rest)
      | none => (none, c :: cs)

/-- An integer in base ten or a real. -/
def decimalNumber? (cs : List Char) : Option (Except ReadError Value × List Char) :=
  let (sign, cs) := takeSign? cs
  let negative := sign.getD false
  (wholeDigits? cs).map fun (whole, cs) =>
    let (places, cs) := decimals cs
    let (power, cs) := exponent cs
    if places.isNone && power.isNone then
      if digitLimit < whole.length then (.error (.numeral (.tooLong whole.length)), cs)
      else (.ok (.integer (signed negative (ofDigits 10 whole))), cs)
    else
      let places := places.getD []
      let mantissa := ofDigits 10 (whole ++ places)
      (.ok (.real (.decimal negative mantissa (power.getD 0 - places.length))), cs)

/-- A number that a text starts with. -/
def number? (cs : List Char) : Option (Except ReadError Value × List Char) :=
  match baseInteger? cs with
  | some (value, rest) => some (.ok value, rest)
  | none => decimalNumber? cs

/-- A real that is no number, or beyond all numbers. -/
def special? (cs : List Char) : Option (Value × List Char) :=
  let (sign, cs) := takeSign? cs
  match cs with
  | 'i' :: 'n' :: 'f' :: rest => some (.real (.infinite (sign.getD false)), rest)
  | 'n' :: 'a' :: 'n' :: rest => some (.real .notANumber, rest)
  | _ => none

/-! ## Dates and times -/

/-- A number of exactly so many digits. -/
def fixedDigits? : Nat → List Char → Option (Nat × List Char)
  | 0, cs => some (0, cs)
  | _ + 1, [] => none
  | count + 1, c :: cs =>
    (digitValue? c).bind fun d =>
      (fixedDigits? count cs).map fun (n, rest) => (d * Nat.pow 10 count + n, rest)

/-- A character and what follows it. -/
def expect? (mark : Char) : List Char → Option (List Char)
  | c :: cs => if c = mark then some cs else none
  | [] => none

/-- A number of two digits in a range. -/
def twoDigits? (low high : Nat) (cs : List Char) : Option (Nat × List Char) :=
  (fixedDigits? 2 cs).filter fun (n, _) => low ≤ n && n ≤ high

/-- A date as far as its digits go. -/
def date? (cs : List Char) : Option (Date × List Char) := do
  let (year, cs) ← fixedDigits? 4 cs
  let cs ← expect? '-' cs
  let (month, cs) ← twoDigits? 1 12 cs
  let cs ← expect? '-' cs
  let (day, cs) ← twoDigits? 1 31 cs
  return (⟨year, month, day⟩, cs)

/-- The millionths of a second after a point: digits beyond the sixth do not count. -/
def microseconds (cs : List Char) : Nat × List Char :=
  match cs with
  | '.' :: ds =>
    match ds.takeWhile (digitValue? · |>.isSome) with
    | [] => (0, cs)
    | shown =>
      let values := (shown.filterMap digitValue?).take 6
      (ofDigits 10 (values ++ List.replicate (6 - values.length) 0), ds.drop shown.length)
  | _ => (0, cs)

/-- A time of the day. -/
def time? (cs : List Char) : Option (Time × List Char) := do
  let (hour, cs) ← twoDigits? 0 23 cs
  let cs ← expect? ':' cs
  let (minute, cs) ← twoDigits? 0 59 cs
  let cs ← expect? ':' cs
  let (second, cs) ← twoDigits? 0 59 cs
  let (micro, cs) := microseconds cs
  return (⟨hour, minute, second, micro⟩, cs)

/-- The hours and minutes of an offset, as minutes. -/
def offsetMinutes? (cs : List Char) : Option (Nat × List Char) := do
  let (hours, cs) ← twoDigits? 0 23 cs
  let cs ← expect? ':' cs
  let (minutes, cs) ← twoDigits? 0 59 cs
  return (60 * hours + minutes, cs)

/-- What a time is counted from, as far as the text says. -/
def zone (cs : List Char) : Zone × List Char :=
  match cs with
  | 'Z' :: rest => (.offset 0, rest)
  | 'z' :: rest => (.offset 0, rest)
  | _ =>
    match takeSign? cs with
    | (some negative, rest) =>
      match offsetMinutes? rest with
      | some (minutes, rest) => (.offset (signed negative minutes), rest)
      | none => (.here, cs)
    | (none, _) => (.here, cs)

/-- Whether a character stands between a date and a time. -/
def isDateTimeMark (c : Char) : Bool := c = 'T' || c = 't' || c = ' '

/-- A time with its zone after the mark that follows a date. -/
def timeAfterDate? : List Char → Option (Time × Zone × List Char)
  | [] => none
  | c :: cs =>
    if !isDateTimeMark c then none
    else (time? cs).map fun (t, cs) => let (z, cs) := zone cs; (t, z, cs)

/-- Whether a year has a day more than others. -/
def isLeapYear (year : Nat) : Bool :=
  year % 4 = 0 && (year % 100 ≠ 0 || year % 400 = 0)

/-- The number of days in a month. -/
def daysInMonth (year month : Nat) : Nat :=
  if month = 2 then if isLeapYear year then 29 else 28
  else if month ∈ [4, 6, 9, 11] then 30 else 31

/-- Whether a date is in the calendar, which starts with the year 1. -/
def Date.isValid (d : Date) : Bool := 0 < d.year && d.day ≤ daysInMonth d.year d.month

/-- A date, a time or both that a text starts with. -/
def moment? (cs : List Char) : Option (Except ReadError Value × List Char) :=
  match date? cs with
  | some (d, rest) =>
    let (value, rest) :=
      match timeAfterDate? rest with
      | some (t, z, rest) => (Value.dateTime d t z, rest)
      | none => (Value.date d, rest)
    some (if d.isValid then .ok value else .error .malformed, rest)
  | none => (time? cs).map fun (t, rest) => (.ok (.time t), rest)

end FileTags.Toml
