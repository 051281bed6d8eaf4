/-
  Strings of TOML documents.

  A basic string stands between double quotes and knows escapes, a literal string between single
  quotes and knows none.  Between three quotes a string can go over lines: a line feed right
  after the opening quotes does not count, a backslash at the end of a line swallows the white
  space that follows, and up to two quotes before the closing ones belong to the string.

  * `basicString`, `literalString`, `basicLines` and `literalLines` read the rest of a string
    after its opening quotes and give what follows the closing ones;
  * `quotedString` reads a string with its quotes.
-/
import FileTags.Number.Numeral

namespace FileTags.Toml

open Text Number

/-- Why a text is no TOML document. -/
inductive ReadError where
  /-- The text does not follow the grammar, or names a thing twice. -/
  | malformed
  /-- An integer has too many digits. -/
  | numeral (error : NumeralError)
deriving DecidableEq

/-- A part of a document and what follows it. -/
abbrev Read (α : Type) := Except ReadError (α × List Char)

/-! ## Characters -/

/-- The control characters but the tab. -/
def isControl (c : Char) : Bool := (c.toNat < 0x20 && c ≠ '\t') || c.toNat = 0x7f

/-- The characters that separate on a line. -/
def isSpace (c : Char) : Bool := c = ' ' || c = '\t'

/-- The characters that separate where lines do not count. -/
def isGap (c : Char) : Bool := isSpace c || c = '\n'

/-- The value of a hexadecimal digit. -/
def hexValue? (c : Char) : Option Nat :=
  if '0' ≤ c ∧ c ≤ '9' then some (c.toNat - '0'.toNat)
  else if 'a' ≤ c ∧ c ≤ 'f' then some (c.toNat - 'a'.toNat + 10)
  else if 'A' ≤ c ∧ c ≤ 'F' then some (c.toNat - 'A'.toNat + 10)
  else none

/-- The character with a code point in hexadecimal digits. -/
def charOfHex? (ds : List Char) : Option Char :=
  (ds.mapM hexValue?).bind fun values =>
    let n := ofDigits 16 values
    if n.isValidChar then some (Char.ofNat n) else none

/-- The character that an escape of one letter stands for. -/
def escapedChar? : Char → Option Char
  | 'b' => some '\x08'
  | 't' => some '\t'
  | 'n' => some '\n'
  | 'f' => some '\x0c'
  | 'r' => some '\r'
  | '"' => some '"'
  | '\\' => some '\\'
  | _ => none

/-- A part that begins with a character. -/
def prepend (c : Char) : Read (List Char) → Read (List Char)
  | .ok (cs, rest) => .ok (c :: cs, rest)
  | .error e => .error e

/-- A part that begins with a character if there is one. -/
def prepend? (c : Option Char) (part : Read (List Char)) : Read (List Char) :=
  match c with
  | some c => prepend c part
  | none => .error .malformed

/-! ## Strings on a line -/

/-- The rest of a basic string. -/
def basicString : List Char → Read (List Char)
  | [] => .error .malformed
  | '"' :: rest => .ok ([], rest)
  | '\\' :: 'u' :: a :: b :: c :: d :: rest => prepend? (charOfHex? [a, b, c, d]) (basicString rest)
  | '\\' :: 'U' :: a :: b :: c :: d :: e :: f :: g :: h :: rest =>
    prepend? (charOfHex? [a, b, c, d, e, f, g, h]) (basicString rest)
  | '\\' :: c :: rest => prepend? (escapedChar? c) (basicString rest)
  | c :: rest =>
    if c = '\\' ∨ isControl c then .error .malformed else prepend c (basicString rest)

/-- The rest of a literal string. -/
def literalString : List Char → Read (List Char)
  | [] => .error .malformed
  | c :: rest =>
    if c = '\'' then .ok ([], rest)
    else if isControl c then .error .malformed
    else prepend c (literalString rest)

/-! ## Strings over lines -/

/-- What the reader of a basic string over lines does with white space. -/
inductive Gap where
  /-- It belongs to the string. -/
  | kept
  /-- It is swallowed, and a line feed must follow. -/
  | beforeLine
  /-- It is swallowed. -/
  | dropped
deriving DecidableEq

/-- The rest of a basic string over lines, up to its first three quotes in a row. -/
def basicLines : Gap → List Char → Read (List Char)
  | _, [] => .error .malformed
  | .beforeLine, c :: rest =>
    if isSpace c then basicLines .beforeLine rest
    else if c = '\n' then basicLines .dropped rest
    else .error .malformed
  | .dropped, ' ' :: rest => basicLines .dropped rest
  | .dropped, '\t' :: rest => basicLines .dropped rest
  | .dropped, '\n' :: rest => basicLines .dropped rest
  | _, '"' :: '"' :: '"' :: rest => .ok ([], rest)
  | _, '\\' :: 'u' :: a :: b :: c :: d :: rest =>
    prepend? (charOfHex? [a, b, c, d]) (basicLines .kept rest)
  | _, '\\' :: 'U' :: a :: b :: c :: d :: e :: f :: g :: h :: rest =>
    prepend? (charOfHex? [a, b, c, d, e, f, g, h]) (basicLines .kept rest)
  | _, '\\' :: ' ' :: rest => basicLines .beforeLine rest
  | _, '\\' :: '\t' :: rest => basicLines .beforeLine rest
  | _, '\\' :: '\n' :: rest => basicLines .dropped rest
  | _, '\\' :: c :: rest => prepend? (escapedChar? c) (basicLines .kept rest)
  | _, c :: rest =>
    if c = '\\' ∨ (isControl c ∧ c ≠ '\n') then .error .malformed
    else prepend c (basicLines .kept rest)

/-- The rest of a literal string over lines, up to its first three quotes in a row. -/
def literalLines : List Char → Read (List Char)
  | [] => .error .malformed
  | '\'' :: '\'' :: '\'' :: rest => .ok ([], rest)
  | c :: rest =>
    if isControl c ∧ c ≠ '\n' then .error .malformed else prepend c (literalLines rest)

/-- A string over lines with the quotes, at most two, that follow its first three. -/
def withQuotes (quote : Char) : Read (List Char) → Read (List Char)
  | .error e => .error e
  | .ok (cs, rest) =>
    let extra := (rest.take 2).takeWhile (· = quote)
    .ok (cs ++ extra, rest.drop extra.length)

/-- What follows a line feed right after the opening quotes. -/
def dropFirstLine : List Char → List Char
  | '\n' :: rest => rest
  | cs => cs

/-! ## Strings with their quotes -/

/-- A string on a line, with its quotes. -/
def lineString : List Char → Read (List Char)
  | '"' :: rest => basicString rest
  | '\'' :: rest => literalString rest
  | _ => .error .malformed

/-- A string of any form, with its quotes. -/
def quotedString : List Char → Read (List Char)
  | '"' :: '"' :: '"' :: rest => withQuotes '"' (basicLines .kept (dropFirstLine rest))
  | '\'' :: '\'' :: '\'' :: rest => withQuotes '\'' (literalLines (dropFirstLine rest))
  | cs => lineString cs

end FileTags.Toml
