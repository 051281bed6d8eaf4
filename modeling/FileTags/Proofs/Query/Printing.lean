/-
  Writing expressions as queries.

  An expression is written with every leaf and every pair of operands in parentheses of its own,
  a `not` before its operand, and every word in quotes.

  * `Expr.Denotable`: an expression in which no part matches everything;
  * `Expr.tokens` and `Expr.text` write an expression;
  * `Derives.denotable` and `Expr.derives`: phrases denote such expressions and no others;
  * `Expr.lexesTo_text`: the text has the tokens, as long as no word has a quote in it;
  * `Query.parse_text`: what token lists denote, and that expressions are read back.
-/
import FileTags.Query
import FileTags.Proofs.Query.Grammar
import FileTags.Proofs.Query.Lexing

namespace FileTags.Query

namespace Expr

/-- No part of an expression is the one that matches everything, or an attribute with both sides
    left open. -/
def Denotable : Expr → Prop
  | every => False
  | tag _ => True
  | attr key value => key.isSome ∨ value.isSome
  | and left right | or left right => left.Denotable ∧ right.Denotable
  | not expr => expr.Denotable

instance : ∀ e : Expr, Decidable e.Denotable
  | every => inferInstanceAs (Decidable False)
  | tag _ => inferInstanceAs (Decidable True)
  | attr _ _ => inferInstanceAs (Decidable (_ ∨ _))
  | and left right | or left right =>
    have := instDecidableDenotable left
    have := instDecidableDenotable right
    inferInstanceAs (Decidable (_ ∧ _))
  | not expr => instDecidableDenotable expr

/-- The names, keys and values of an expression. -/
def words : Expr → List String
  | every => []
  | tag name => [name]
  | attr key value => key.toList ++ value.toList
  | and left right | or left right => left.words ++ right.words
  | not expr => expr.words

/-! ## Writing -/

/-- The tokens of an expression. -/
def tokens : Expr → List Token
  | every => []
  | tag name => [.startParen, .word name, .endParen]
  | attr key value =>
    [.startParen] ++ key.toList.map .word ++ [.colon] ++ value.toList.map .word ++ [.endParen]
  | and left right => [.startParen] ++ left.tokens ++ right.tokens ++ [.endParen]
  | or left right => [.startParen] ++ left.tokens ++ [.or] ++ right.tokens ++ [.endParen]
  | not expr => [.not] ++ expr.tokens

/-- A word in quotes. -/
def quote (word : String) : String := "\"" ++ word ++ "\""

/-- The text of an expression. -/
def text : Expr → String
  | every => ""
  | tag name => "(" ++ quote name ++ ")"
  | attr key value => "(" ++ key.elim "" quote ++ ":" ++ value.elim "" quote ++ ")"
  | and left right => "(" ++ left.text ++ " " ++ right.text ++ ")"
  | or left right => "(" ++ left.text ++ " or " ++ right.text ++ ")"
  | not expr => "not " ++ expr.text

end Expr

/-! ## What phrases denote -/

theorem Derives.denotable {kind : Phrase} {ts rest : List Token} {e : Expr}
    (d : Derives kind ts rest e) : e.Denotable := by
  induction d with
  | tag => exact trivial
  | pair | key => exact Or.inl rfl
  | value => exact Or.inr rfl
  | colon _ _ ih | not _ ih | group _ ih | last _ ih => exact ih
  | or _ _ ih ih' | and _ _ ih ih' => exact ⟨ih, ih'⟩

/-- The tokens of an expression are a unit that denotes it, whatever follows. -/
theorem Expr.derives {e : Expr} (den : e.Denotable) (rest : List Token) :
    Derives .unit (e.tokens ++ rest) rest e := by
  induction e generalizing rest with
  | every => cases den
  | tag name => exact .group (.last (.tag nofun))
  | attr key value =>
    refine .group (.last ?_)
    cases key with
    | some key =>
      cases value with
      | some value => exact .pair
      | none => exact .key nofun
    | none =>
      cases value with
      | some value => exact .value
      | none => simp [Denotable] at den
  | and left right ihl ihr =>
    have l := ihl den.1 (right.tokens ++ .endParen :: rest)
    have r := ihr den.2 (.endParen :: rest)
    simpa [tokens] using Derives.group (.and l (.last r))
  | or left right ihl ihr =>
    have l := ihl den.1 (.or :: right.tokens ++ .endParen :: rest)
    have r := ihr den.2 (.endParen :: rest)
    simpa [tokens] using Derives.group (.or l (.last r))
  | not expr ih => exact .not (ih den rest)

/-! ## What texts stand for -/

theorem lexesTo_quote {word : String} {c : Char} (free : '"' ∉ word.toList)
    (sep : isSeparator c = true) :
    LexesTo ((Expr.quote word).toList ++ [c]) (.word word :: separatorToken c) := by
  simpa [Expr.quote] using lexesTo_quoted free sep

theorem Expr.lexesTo_text {e : Expr} (free : ∀ word ∈ e.words, '"' ∉ word.toList) :
    LexesTo e.text.toList e.tokens := by
  have open' : LexesTo ['('] [.startParen] := lexesTo_separator rfl
  have close : LexesTo [')'] [.endParen] := lexesTo_separator rfl
  have colon : LexesTo [':'] [.colon] := lexesTo_separator rfl
  have space : LexesTo [' '] [] := lexesTo_separator rfl
  induction e with
  | every => exact lexesTo_nil
  | tag name =>
    have word : LexesTo ((quote name).toList ++ [')']) [.word name, .endParen] :=
      lexesTo_quote (free name (by simp [words])) rfl
    simpa [text, tokens] using open'.append word
  | attr key value =>
    have keySide : LexesTo ((key.elim "" quote).toList ++ [':'])
        (key.toList.map .word ++ [.colon]) := by
      cases key with
      | none => exact colon
      | some key => exact lexesTo_quote (free key (by simp [words])) rfl
    have valueSide : LexesTo ((value.elim "" quote).toList ++ [')'])
        (value.toList.map .word ++ [.endParen]) := by
      cases value with
      | none => exact close
      | some value => exact lexesTo_quote (free value (by simp [words])) rfl
    simpa [text, tokens] using open'.append (keySide.append valueSide)
  | and left right ihl ihr =>
    have l := ihl fun word h => free word (by simp [words, h])
    have r := ihr fun word h => free word (by simp [words, h])
    simpa [text, tokens] using open'.append (l.append (space.append (r.append close)))
  | or left right ihl ihr =>
    have l := ihl fun word h => free word (by simp [words, h])
    have r := ihr fun word h => free word (by simp [words, h])
    simpa [text, tokens] using open'.append (l.append (lexesTo_or.append (r.append close)))
  | not expr ih => simpa [text, tokens] using lexesTo_not.append (ih free)

/-- **What queries denote**: the empty token list denotes what matches everything, and the others
    denote the expressions no part of which does.  Every such expression is read back from its
    tokens, and from its text if there is no quote in a word of it. -/
theorem parse_text :
    (∀ ts e, parseTokens ts = .ok e → if ts = [] then e = .every else e.Denotable) ∧
      (∀ e : Expr, e.Denotable → parseTokens e.tokens = .ok e) ∧
      ∀ e : Expr, e.Denotable → (∀ word ∈ e.words, '"' ∉ word.toList) → parse e.text = .ok e := by
  have tokens : ∀ e : Expr, e.Denotable → parseTokens e.tokens = .ok e := by
    intro e den
    have d : Derives .chain e.tokens [] e := by simpa using Derives.last (Expr.derives den [])
    rw [parseTokens_eq_resume d.ne_nil, resume_of_derives d]
  refine ⟨?_, tokens, ?_⟩
  · intro ts e ok
    split
    · next empty =>
      subst empty
      exact (Except.ok.inj ok).symm
    · next ne =>
      rw [parseTokens_eq_resume ne] at ok
      exact (derives_of_resume ok).denotable
  · intro e den free
    rw [parse, (Expr.lexesTo_text free).lex]
    show (parseTokens e.tokens).mapError QueryError.parse = .ok e
    rw [tokens e den]
    rfl

/-- A chain to the left of an operator, a key before a word and a `not` before a chain. -/
theorem parse_text_left_nested :
    let e : Expr :=
      .and (.or (.attr (some "k") none) (.tag "or")) (.not (.and (.tag "a b") (.tag "")))
    e.text = "(((\"k\":) or (\"or\")) not ((\"a b\") (\"\")))" ∧ parse e.text = .ok e :=
  ⟨by decide, parse_text.2.2 _ (by decide) (by decide)⟩

end FileTags.Query
