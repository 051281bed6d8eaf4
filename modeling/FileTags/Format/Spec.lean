/-
  Format specifications: how a value is to be written.

  A specification is read from left to right, every part may be missing: a fill character and an
  alignment, a sign rule, `z`, `#`, `0`, a width, a separator of digit groups, a dot with a
  precision, and one character for the presentation.

  * `Spec` holds the parts, `Spec.parse` reads them;
  * `Spec.fillChar` and `Spec.alignOr` say what the parts mean together: `0` before the width
    fills with zeros, and unless an alignment is given it does so after the sign.
-/
import FileTags.Format.Fault

namespace FileTags.Format

open Text Number

/-- Where a value stands in its width: the fill goes to the other side, to both, or between the
    sign and the digits. -/
inductive Align where
  | left
  | right
  | center
  | afterSign
deriving DecidableEq

/-- The character that stands for an alignment. -/
def Align.ofChar? : Char → Option Align
  | '<' => some left
  | '>' => some right
  | '^' => some center
  | '=' => some afterSign
  | _ => none

/-- What is written in front of numbers that are not negative: a plus, nothing, or a space. -/
inductive SignRule where
  | plus
  | minus
  | space
deriving DecidableEq

/-- The character that stands for a sign rule. -/
def SignRule.ofChar? : Char → Option SignRule
  | '+' => some plus
  | '-' => some minus
  | ' ' => some space
  | _ => none

/-- The parts of a specification, as far as they are given. -/
structure Spec where
  fill : Option Char
  align : Option Align
  sign : Option SignRule
  /-- `z`: no sign in front of a zero. -/
  plainZero : Bool
  /-- `#`: the alternate form. -/
  alternate : Bool
  /-- `0` before the width. -/
  zeroPad : Bool
  width : Option Nat
  separator : Option Char
  precision : Option Nat
  type : Option Char
deriving DecidableEq

/-! ## Reading -/

/-- The fill and the alignment that a specification starts with; a character before an alignment
    is a fill, whatever it is. -/
def takeAlign : List Char → (Option Char × Option Align) × List Char
  | [] => ((none, none), [])
  | c :: cs =>
    match cs with
    | d :: ds =>
      match Align.ofChar? d, Align.ofChar? c with
      | some a, _ => ((some c, some a), ds)
      | none, some a => ((none, some a), cs)
      | none, none => ((none, none), c :: cs)
    | [] =>
      match Align.ofChar? c with
      | some a => ((none, some a), [])
      | none => ((none, none), [c])

/-- The sign rule that a text starts with. -/
def takeSignRule : List Char → Option SignRule × List Char
  | [] => (none, [])
  | c :: cs =>
    match SignRule.ofChar? c with
    | some rule => (some rule, cs)
    | none => (none, c :: cs)

/-- Whether a text starts with a character, and what follows it. -/
def takeChar (mark : Char) : List Char → Bool × List Char
  | [] => (false, [])
  | c :: cs => if c = mark then (true, cs) else (false, c :: cs)

/-- The largest width or precision. -/
def countLimit : Nat := 0x7fffffffffffffff

/-- The number that a text starts with, if it does. -/
def takeCount (cs : List Char) : Except Fault (Option Nat × List Char) :=
  match cs.takeWhile (decimalValue? · |>.isSome) with
  | [] => .ok (none, cs)
  | ds =>
    let n := ofDigits 10 (ds.filterMap decimalValue?)
    if n ≤ countLimit then .ok (some n, cs.drop ds.length) else .error .tooManyDigits

/-- The separator that a text starts with; the two exclude each other. -/
def takeSeparator (cs : List Char) : Except Fault (Option Char × List Char) :=
  let (comma, cs) := takeChar ',' cs
  let (underscore, cs) := takeChar '_' cs
  if comma && underscore || underscore && cs.head? = some ',' then .error .bothSeparators
  else .ok (if comma then some ',' else if underscore then some '_' else none, cs)

/-- The precision that a text starts with, after a dot. -/
def takePrecision (cs : List Char) : Except Fault (Option Nat × List Char) :=
  match takeChar '.' cs with
  | (false, cs) => .ok (none, cs)
  | (true, cs) =>
    match takeCount cs with
    | .ok (none, _) => .error .missingPrecision
    | counted => counted

/-- The presentation that ends a specification. -/
def takeType (kind : Kind) (spec : List Char) : List Char → Except Fault (Option Char)
  | [] => .ok none
  | [c] => .ok (some c)
  | _ => .error (.invalid spec kind)

/-- The presentations with groups of three digits. -/
def groupedByThree (type : Char) : Bool :=
  decide (type ∈ ['d', 'e', 'f', 'g', 'E', 'F', 'G', '%', '\x00'])

/-- The presentations with groups of four digits. -/
def groupedByFour (type : Char) : Bool := decide (type ∈ ['b', 'o', 'x', 'X'])

/-- Whether a presentation can have a separator. -/
def allowsSeparator (separator type : Char) : Bool :=
  groupedByThree type || groupedByFour type && separator = '_'

/-- The specification that a text denotes for a kind of value. -/
def Spec.parse (kind : Kind) (text : List Char) : Except Fault Spec := do
  let ((fill, align), cs) := takeAlign text
  let (sign, cs) := takeSignRule cs
  let (plainZero, cs) := takeChar 'z' cs
  let (alternate, cs) := takeChar '#' cs
  let (zeroPad, cs) := if fill.isSome then (false, cs) else takeChar '0' cs
  let (width, cs) ← takeCount cs
  let (separator, cs) ← takeSeparator cs
  let (precision, cs) ← takePrecision cs
  let type ← takeType kind text cs
  match separator with
  | some c =>
    let t := type.getD kind.defaultType
    if !allowsSeparator c t then throw (.separatorNotAllowed c t)
  | none => pure ()
  return { fill, align, sign, plainZero, alternate, zeroPad, width, separator, precision, type }

/-! ## Meaning -/

namespace Spec

/-- The character that fills the width. -/
def fillChar (s : Spec) : Char := s.fill.getD (if s.zeroPad then '0' else ' ')

/-- The alignment, for values that stand left or right by default. -/
def alignOr (s : Spec) (default : Align) : Align :=
  s.align.getD (if s.zeroPad ∧ default = .right then .afterSign else default)

/-- The least width. -/
def leastWidth (s : Spec) : Nat := s.width.getD 0

end Spec

end FileTags.Format
