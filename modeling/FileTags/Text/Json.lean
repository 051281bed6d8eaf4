/-
  JSON texts in ASCII, laid out over lines.

  Every array and object that holds something has its elements on lines of their own, two
  columns further in than its brackets.  Quotes, backslashes and all characters outside the
  printable ASCII ones are written as escapes, those above U+FFFF as two UTF-16 units.

  * `Json` is the part of JSON that is written: texts, arrays and objects;
  * `Json.render` lays a value out.
-/
import FileTags.Text.Quoted
import FileTags.Text.Split

namespace FileTags.Text

/-- A JSON value without numbers, truth values and null. -/
inductive Json where
  | string (s : String)
  | array (items : List Json)
  | object (members : List (String × Json))

namespace Json

/-! ## Strings -/

/-- The escape of one UTF-16 unit. -/
def unitEscape (n : Nat) : List Char := '\\' :: 'u' :: hexWidth 4 n

/-- How a character is written in a string. -/
def escapeChar (c : Char) : List Char :=
  if c = '"' then ['\\', '"']
  else if c = '\\' then ['\\', '\\']
  else if c = '\n' then ['\\', 'n']
  else if c = '\r' then ['\\', 'r']
  else if c = '\t' then ['\\', 't']
  else if c = '\x0c' then ['\\', 'f']
  else if c = '\x08' then ['\\', 'b']
  else if isPrintableAscii c then [c]
  else if c.toNat < 0x10000 then unitEscape c.toNat
  else unitEscape (0xd800 + (c.toNat - 0x10000) / 0x400) ++
    unitEscape (0xdc00 + (c.toNat - 0x10000) % 0x400)

/-- A string between its quotes. -/
def renderString (s : String) : List Char :=
  '"' :: s.toList.flatMap escapeChar ++ ['"']

/-! ## Layout -/

/-- A line feed and the blanks before the first character of a line. -/
def newline (depth : Nat) : List Char := '\n' :: List.replicate (2 * depth) ' '

/-- Elements between brackets, each on a line of its own. -/
def block (depth : Nat) (opening closing : Char) : List (List Char) → List Char
  | [] => [opening, closing]
  | items =>
    opening :: newline (depth + 1) ++ join (',' :: newline (depth + 1)) items ++
      newline depth ++ [closing]

mutual

/-- A value whose brackets stand in the given depth. -/
def renderAt (depth : Nat) : Json → List Char
  | string s => renderString s
  | array items => block depth '[' ']' (renderItems (depth + 1) items)
  | object members => block depth '{' '}' (renderMembers (depth + 1) members)

/-- The elements of an array. -/
def renderItems (depth : Nat) : List Json → List (List Char)
  | [] => []
  | item :: items => renderAt depth item :: renderItems depth items

/-- The members of an object. -/
def renderMembers (depth : Nat) : List (String × Json) → List (List Char)
  | [] => []
  | (key, value) :: members =>
    (renderString key ++ [':', ' '] ++ renderAt depth value) :: renderMembers depth members

end

/-- A value as a text. -/
def render (j : Json) : String := String.ofList (renderAt 0 j)

end Json

end FileTags.Text
