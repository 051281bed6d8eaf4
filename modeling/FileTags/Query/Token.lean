/-
  Tokens of search queries, and how a text is cut into them.

  Parentheses, commas and colons are tokens of their own (a comma is another way to write `or`),
  spaces separate, and everything between is a word.  A double quote switches quoting on and off
  anywhere in a word: between quotes, spaces and the special characters are ordinary, and the
  quotes themselves vanish.  A word without quotes that reads `or` or `not` is an operator, and
  one that reads `and` is dropped.

  * `lex` gives the tokens of a text, or the place of a word whose quote is not closed;
  * `Token.toString` shows a token in messages.
-/
import FileTags.Text.Quoted

namespace FileTags.Query

open Text

/-! ## Tokens -/

/-- A token of a query. -/
inductive Token where
  | word (text : String)
  | startParen
  | endParen
  | or
  | not
  | colon
deriving DecidableEq

/-- A token as messages show it: a word in quotes, the others as they are written. -/
protected def Token.toString : Token → String
  | word text => quoted text
  | startParen => "("
  | endParen => ")"
  | or => "or"
  | not => "not"
  | colon => ":"

instance : ToString Token := ⟨Token.toString⟩

/-! ## Words -/

/-- The token of a character that ends an unquoted word; a space has none. -/
def separatorToken : Char → List Token
  | '(' => [.startParen]
  | ')' => [.endParen]
  | ',' => [.or]
  | ':' => [.colon]
  | _ => []

/-- The characters that end an unquoted word. -/
def isSeparator (c : Char) : Bool := c = ' ' || !(separatorToken c).isEmpty

/-- A word that is being read. -/
structure WordState where
  /-- The position of its first character. -/
  start : Nat
  /-- Its characters so far, without quotes, the latest first. -/
  reversed : List Char := []
  /-- Whether the next character stands between quotes. -/
  inQuotes : Bool := false
  /-- Whether a quote has been read. -/
  wasQuoted : Bool := false

namespace WordState

/-- A word that begins at a position, before its first character. -/
def begin (pos : Nat) : WordState where
  start := pos

/-- The word after one more character. -/
def push (w : WordState) (c : Char) : WordState :=
  if c = '"' then { w with inQuotes := !w.inQuotes, wasQuoted := true }
  else { w with reversed := c :: w.reversed }

/-- The word's text. -/
def text (w : WordState) : String := String.ofList w.reversed.reverse

/-- The tokens of a finished word: an operator, nothing for `and`, or the word. -/
def tokens (w : WordState) : List Token :=
  if w.wasQuoted then [.word w.text]
  else if w.text = "and" then []
  else if w.text = "or" then [.or]
  else if w.text = "not" then [.not]
  else [.word w.text]

end WordState

/-! ## Lexing -/

/-- The only fault of a text: the word at this position has a quote that is never closed. -/
structure LexError where
  start : Nat
deriving DecidableEq

protected def LexError.message (e : LexError) : String :=
  s!"Unterminated quote starting at position {e.start}"

/-- The tokens of the rest of a text from a position on, where a word may have been begun. -/
def lexFrom (pos : Nat) (word : Option WordState) : List Char → Except LexError (List Token)
  | [] =>
    match word with
    | none => .ok []
    | some w => if w.inQuotes then .error ⟨w.start⟩ else .ok w.tokens
  | c :: cs =>
    if isSeparator c && !(word.any (·.inQuotes)) then
      (lexFrom (pos + 1) none cs).map
        ((word.elim [] WordState.tokens ++ separatorToken c) ++ ·)
    else
      lexFrom (pos + 1) (some ((word.getD (.begin pos)).push c)) cs

/-- The tokens of a text. -/
def lex (text : String) : Except LexError (List Token) := lexFrom 0 none text.toList

end FileTags.Query
