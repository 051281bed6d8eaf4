/-
  Texts shown in quotes, as error messages and token lists show them.

  The text stands between single quotes, or between double quotes if it holds a single quote
  and no double one.  The quote and the backslash are written after a backslash, tab, line feed
  and carriage return as `\t`, `\n` and `\r`, and a character that cannot be shown as `\x`,
  `\u` or `\U` with two, four or eight hexadecimal digits, whichever is the first to fit.

  * `quoted` shows what is printable as it is, `quotedAscii` escapes all beyond ASCII;
  * `quotedWith_eq`: a text is shown as its mark, its escaped characters in order, its mark.
-/
import FileTags.Text.Printable

namespace FileTags.Text

/-! ## Numbers in hexadecimal -/

/-- The lower-case hexadecimal digits of a number. -/
def hex (n : Nat) : List Char := Nat.toDigits 16 n

/-- A list of characters filled up on the left to a width. -/
def padLeft (fill : Char) (width : Nat) (cs : List Char) : List Char :=
  List.replicate (width - cs.length) fill ++ cs

/-- The hexadecimal digits of a number, with zeros in front to fill a width. -/
def hexWidth (width n : Nat) : List Char := padLeft '0' width (hex n)

theorem length_padLeft (fill : Char) (width : Nat) (cs : List Char) :
    (padLeft fill width cs).length = max width cs.length := by
  simp only [padLeft, List.length_append, List.length_replicate]; omega

/-! ## Escapes -/

/-- The escape of a character by its code point. -/
def codeEscape (c : Char) : List Char :=
  if c.toNat ≤ 0xff then '\\' :: 'x' :: hexWidth 2 c.toNat
  else if c.toNat ≤ 0xffff then '\\' :: 'u' :: hexWidth 4 c.toNat
  else '\\' :: 'U' :: hexWidth 8 c.toNat

/-- How one character is written between quotes `mark`, where `shown` says which characters
    stand for themselves. -/
def escapeChar (shown : Char → Bool) (mark c : Char) : List Char :=
  if c = mark ∨ c = '\\' then ['\\', c]
  else if c = '\t' then ['\\', 't']
  else if c = '\n' then ['\\', 'n']
  else if c = '\r' then ['\\', 'r']
  else if shown c then [c]
  else codeEscape c

/-- The quote around a text: double only where that saves escapes of single ones. -/
def quoteMark (cs : List Char) : Char :=
  if '\'' ∈ cs ∧ '"' ∉ cs then '"' else '\''

/-- A text between its quotes. -/
def quotedWith (shown : Char → Bool) (cs : List Char) : List Char :=
  let mark := quoteMark cs
  mark :: cs.flatMap (escapeChar shown mark) ++ [mark]

/-- A text in quotes with its printable characters as they are. -/
def quoted (s : String) : String :=
  String.ofList (quotedWith isPrintable s.toList)

/-- Whether a character is printable and in ASCII. -/
def isPrintableAscii (c : Char) : Bool := 0x20 ≤ c.toNat && c.toNat < 0x7f

/-- A text in quotes in ASCII alone. -/
def quotedAscii (s : String) : String :=
  String.ofList (quotedWith isPrintableAscii s.toList)

theorem quotedWith_eq (shown : Char → Bool) (cs : List Char) :
    quotedWith shown cs =
      quoteMark cs :: cs.flatMap (escapeChar shown (quoteMark cs)) ++ [quoteMark cs] := rfl

end FileTags.Text
