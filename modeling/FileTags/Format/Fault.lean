/-
  What can be wrong with a format specification, or with a value for it.

  * `Kind` is what is formatted, a text or an integer;
  * `Fault` is a specification that does not fit its kind, `Overflow` a number that is out of
    range; the two are told apart because only a fault says that the other kind may fit;
  * `Fault.message` and `Overflow.message` are their texts.
-/
import FileTags.Number.Numeral

namespace FileTags.Format

open Text Number

/-- What is formatted. -/
inductive Kind where
  | text
  | integer
deriving DecidableEq

/-- The name of a kind in messages. -/
def Kind.name : Kind → String
  | text => "str"
  | integer => "int"

/-- The presentation type of a kind when none is given. -/
def Kind.defaultType : Kind → Char
  | text => 's'
  | integer => 'd'

/-- A specification that cannot be read, or that does not fit what is formatted. -/
inductive Fault where
  | tooManyDigits
  | bothSeparators
  | missingPrecision
  | invalid (spec : List Char) (kind : Kind)
  | separatorNotAllowed (separator type : Char)
  | unknownType (type : Char) (kind : Kind)
  | signInText
  | spaceInText
  | plainZeroInText
  | alternateInText
  | alignmentInText
  | precisionInInteger
  | plainZeroInInteger
  | signInCharacter
  | alternateInCharacter
  | precisionTooBig
  | numeral (error : NumeralError)
deriving DecidableEq

/-- A presentation type as messages show it: itself, or its code point. -/
def shownType (c : Char) : String :=
  if 32 < c.toNat ∧ c.toNat < 128 then String.singleton c
  else "\\x" ++ String.ofList (hex c.toNat)

protected def Fault.message : Fault → String
  | tooManyDigits => "Too many decimal digits in format string"
  | bothSeparators => "Cannot specify both ',' and '_'."
  | missingPrecision => "Format specifier missing precision"
  | invalid spec kind =>
    s!"Invalid format specifier '{String.ofList spec}' for object of type '{kind.name}'"
  | separatorNotAllowed separator type => s!"Cannot specify '{separator}' with '{shownType type}'."
  | unknownType type kind =>
    s!"Unknown format code '{shownType type}' for object of type '{kind.name}'"
  | signInText => "Sign not allowed in string format specifier"
  | spaceInText => "Space not allowed in string format specifier"
  | plainZeroInText => "Negative zero coercion (z) not allowed in string format specifier"
  | alternateInText => "Alternate form (#) not allowed in string format specifier"
  | alignmentInText => "'=' alignment not allowed in string format specifier"
  | precisionInInteger => "Precision not allowed in integer format specifier"
  | plainZeroInInteger => "Negative zero coercion (z) not allowed in integer format specifier"
  | signInCharacter => "Sign not allowed with integer format specifier 'c'"
  | alternateInCharacter => "Alternate form (#) not allowed with integer format specifier 'c'"
  | precisionTooBig => "precision too big"
  | numeral error => error.message

/-- A number that is out of range for its presentation. -/
inductive Overflow where
  /-- The number has more than 64 bits where a character is asked for. -/
  | word
  /-- The number is no code point. -/
  | codePoint
  /-- The number is beyond all doubles. -/
  | double
deriving DecidableEq

protected def Overflow.message : Overflow → String
  | word => "Python int too large to convert to C long"
  | codePoint => "%c arg not in range(0x110000)"
  | double => "int too large to convert to float"

/-- Why a value cannot be formatted. -/
inductive Failure where
  | fault (fault : Fault)
  | overflow (overflow : Overflow)
deriving DecidableEq

end FileTags.Format
