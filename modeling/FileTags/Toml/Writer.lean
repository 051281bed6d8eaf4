/-
  Writing TOML documents.

  A key is written without quotes where it can be.  A string is written as a basic string on one
  line; an array of strings has one item a line, and each ends with a comma.

  * `writeString`, `writeKey` and `writeStrings` write a string, a key and an array of strings;
  * `writeMember` writes the line or lines of a member.
-/
import FileTags.Toml.Document

namespace FileTags.Toml

open Text

/-- How a character is written in a basic string. -/
def writeChar (c : Char) : List Char :=
  if c = '"' then ['\\', '"']
  else if c = '\\' then ['\\', '\\']
  else if c = '\x08' then ['\\', 'b']
  else if c = '\n' then ['\\', 'n']
  else if c = '\x0c' then ['\\', 'f']
  else if c = '\r' then ['\\', 'r']
  else if isControl c then '\\' :: 'u' :: hexWidth 4 c.toNat
  else [c]

/-- A basic string with its quotes. -/
def writeString (s : String) : List Char := '"' :: s.toList.flatMap writeChar ++ ['"']

/-- A part of a key. -/
def writeKey (name : String) : List Char :=
  if name.toList ≠ [] ∧ name.toList.all isBare then name.toList else writeString name

/-- The line of an item in an array. -/
def writeItem (s : String) : List Char := "    ".toList ++ writeString s ++ [',', '\n']

/-- An array of strings. -/
def writeStrings : List String → List Char
  | [] => ['[', ']']
  | items => '[' :: '\n' :: items.flatMap writeItem ++ [']']

/-- A member whose value is already written. -/
def writeMember (name : String) (value : List Char) : List Char :=
  writeKey name ++ [' ', '=', ' '] ++ value ++ ['\n']

/-- The header of a table. -/
def writeHeader (name : String) : List Char := '[' :: writeKey name ++ [']', '\n']

end FileTags.Toml
