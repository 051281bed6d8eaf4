/-
  Tokens as texts.

  A word is written in quotes and every other token as it is, with spaces between neighbours.

  * `Spells` are the ways to write a token, `Spaced` those to write a list of tokens;
  * `quoteFree_of_lexFrom`: no word that is read has a quote in it, since quotes switch quoting
    and never go into a word;
  * `Spaced.lexesTo`: what is written stands for its tokens;
  * `Query.lex_image`: the token lists that texts have are those without a quote in a word, and
    each of them is read back however it is written.
-/
import FileTags.Proofs.Query.Lexing

namespace FileTags.Query

/-- If a token is a word, there is no quote in it. -/
def Token.QuoteFree : Token → Prop
  | word text => '"' ∉ text.toList
  | _ => True

instance : ∀ t : Token, Decidable t.QuoteFree
  | .word text => inferInstanceAs (Decidable ('"' ∉ text.toList))
  | .startParen | .endParen | .or | .not | .colon => inferInstanceAs (Decidable True)

/-- The ways to write a token. -/
inductive Spells : Token → List Char → Prop where
  | word {text : String} : Spells (.word text) ('"' :: text.toList ++ ['"'])
  | startParen : Spells .startParen ['(']
  | endParen : Spells .endParen [')']
  | or : Spells .or ['o', 'r']
  | comma : Spells .or [',']
  | not : Spells .not ['n', 'o', 't']
  | colon : Spells .colon [':']

/-- The ways to write some tokens one after the other, with one space or more between two. -/
inductive Spaced : List Token → List Char → Prop where
  | nil : Spaced [] []
  | last {t : Token} {cs : List Char} (first : Spells t cs) : Spaced [t] cs
  | cons {t u : Token} {ts : List Token} {cs ds : List Char} (first : Spells t cs) (gap : Nat)
      (rest : Spaced (u :: ts) ds) :
      Spaced (t :: u :: ts) (cs ++ ' ' :: List.replicate gap ' ' ++ ds)

variable {t : Token} {ts : List Token} {cs : List Char} {w : WordState} {c : Char} {pos : Nat}

/-! ## What is read -/

theorem quoteFree_separatorToken (there : t ∈ separatorToken c) : t.QuoteFree := by
  unfold separatorToken at there
  split at there
  · obtain rfl := List.mem_singleton.1 there
    exact trivial
  · obtain rfl := List.mem_singleton.1 there
    exact trivial
  · obtain rfl := List.mem_singleton.1 there
    exact trivial
  · obtain rfl := List.mem_singleton.1 there
    exact trivial
  · cases there

namespace WordState

theorem quoteFree_tokens (free : '"' ∉ w.reversed) (there : t ∈ w.tokens) : t.QuoteFree := by
  have kinds : t = .word w.text ∨ t = .or ∨ t = .not := by grind [tokens]
  rcases kinds with rfl | rfl | rfl
  · simpa [Token.QuoteFree, text] using free
  · exact trivial
  · exact trivial

/-- A quote does not go into the word that it stands in. -/
theorem quote_not_mem_push (free : '"' ∉ w.reversed) : '"' ∉ (w.push c).reversed := by
  unfold push
  split
  · exact free
  · next other => simpa [Ne.symm other] using free

end WordState

/-- **No word that is read has a quote in it**, if the one that has been begun has none. -/
theorem quoteFree_of_lexFrom (word : Option WordState) (free : ∀ w ∈ word, '"' ∉ w.reversed)
    (read : lexFrom pos word cs = .ok ts) : ∀ t ∈ ts, t.QuoteFree := by
  have begun : ∀ t ∈ word.elim [] WordState.tokens, t.QuoteFree := by
    intro t there
    cases word with
    | none => cases there
    | some w => exact WordState.quoteFree_tokens (free w rfl) there
  induction cs generalizing pos word ts with
  | nil =>
    obtain ⟨-, rfl⟩ := closed_of_lexFrom_nil read
    exact begun
  | cons c cs ih =>
    rw [lexFrom] at read
    split at read
    · cases later : lexFrom (pos + 1) none cs with
      | error e =>
        rw [later] at read
        cases read
      | ok ts' =>
        rw [later] at read
        obtain rfl := Except.ok.inj read
        have rest := ih none (by simp) later (List.forall_mem_nil _)
        exact List.forall_mem_append.2
          ⟨List.forall_mem_append.2 ⟨begun, fun t => quoteFree_separatorToken⟩, rest⟩
    · have pushed : '"' ∉ ((word.getD (.begin pos)).push c).reversed := by
        refine WordState.quote_not_mem_push ?_
        cases word with
        | none => exact List.not_mem_nil
        | some w => exact free w rfl
      exact ih _ (by simpa using pushed) read fun t => WordState.quoteFree_tokens pushed

/-! ## What is written -/

theorem Spells.lexesTo (spells : Spells t cs) (free : t.QuoteFree) : LexesTo (cs ++ [' ']) [t] := by
  have space : LexesTo [' '] [] := lexesTo_separator rfl
  have separator : ∀ {c : Char}, isSeparator c = true →
      LexesTo ([c] ++ [' ']) (separatorToken c ++ []) := fun sep =>
    (lexesTo_separator sep).append space
  cases spells with
  | word => simpa [separatorToken] using lexesTo_quoted free (rfl : isSeparator ' ' = true)
  | startParen => exact separator rfl
  | endParen => exact separator rfl
  | or => exact lexesTo_orWord
  | comma => exact separator rfl
  | not => exact lexesTo_not
  | colon => exact separator rfl

theorem lexesTo_spaces (n : Nat) : LexesTo (List.replicate n ' ') [] := by
  induction n with
  | zero => exact lexesTo_nil
  | succ n ih =>
    have space : LexesTo [' '] [] := lexesTo_separator rfl
    exact space.append ih

/-- **What is written stands for its tokens**, with a space behind it. -/
theorem Spaced.lexesTo (spaced : Spaced ts cs) (free : ∀ t ∈ ts, t.QuoteFree) :
    LexesTo (cs ++ [' ']) ts := by
  induction spaced with
  | nil => exact lexesTo_separator rfl
  | last first => exact first.lexesTo (free _ List.mem_cons_self)
  | cons first gap rest ih =>
    have front := first.lexesTo (free _ List.mem_cons_self)
    have back := ih fun t there => free t (List.mem_cons_of_mem _ there)
    simpa using front.append ((lexesTo_spaces gap).append back)

theorem exists_spaced (ts : List Token) : ∃ cs, Spaced ts cs := by
  have spelling : ∀ t : Token, ∃ cs, Spells t cs
    | .word _ => ⟨_, .word⟩
    | .startParen => ⟨_, .startParen⟩
    | .endParen => ⟨_, .endParen⟩
    | .or => ⟨_, .or⟩
    | .not => ⟨_, .not⟩
    | .colon => ⟨_, .colon⟩
  induction ts with
  | nil => exact ⟨[], .nil⟩
  | cons t ts ih =>
    obtain ⟨cs, first⟩ := spelling t
    obtain ⟨ds, rest⟩ := ih
    cases ts with
    | nil => exact ⟨cs, .last first⟩
    | cons u ts => exact ⟨_, .cons first 0 rest⟩

/-- **The tokens of texts** are the token lists without a quote in a word.  Each of these is read
    back from all texts that it is written as. -/
theorem lex_image :
    (∀ text ts, lex text = .ok ts → ∀ t ∈ ts, t.QuoteFree) ∧
    (∀ ts text, (∀ t ∈ ts, t.QuoteFree) → Spaced ts text.toList → lex text = .ok ts) ∧
    ∀ ts, (∃ text, lex text = .ok ts) ↔ ∀ t ∈ ts, t.QuoteFree := by
  have free : ∀ text ts, lex text = .ok ts → ∀ t ∈ ts, t.QuoteFree := fun text ts read =>
    quoteFree_of_lexFrom none nofun read
  have written : ∀ ts text, (∀ t ∈ ts, t.QuoteFree) → Spaced ts text.toList →
      lex text = .ok ts := fun ts text free spaced =>
    lex_of_lexesTo_space (spaced.lexesTo free)
  refine ⟨free, written, fun ts => ⟨fun ⟨text, read⟩ => free text ts read, fun quoteFree => ?_⟩⟩
  obtain ⟨cs, spaced⟩ := exists_spaced ts
  exact ⟨String.ofList cs, written ts _ quoteFree (by rwa [String.toList_ofList])⟩

/-- Keywords in quotes and without, an empty word, and a word with separators in it. -/
theorem lex_image_keywords :
    lex "\"and\"  , \"\" or ( \"not\" : \"a b,(c:\" ) not \"or\"" =
      .ok [.word "and", .or, .word "", .or, .startParen, .word "not", .colon, .word "a b,(c:",
        .endParen, .not, .word "or"] :=
  lex_image.2.1 _ _ (by decide) <|
    .cons .word 1 <| .cons .comma 0 <| .cons .word 0 <| .cons .or 0 <| .cons .startParen 0 <|
      .cons .word 0 <| .cons .colon 0 <| .cons .word 0 <| .cons .endParen 0 <| .cons .not 0 <|
        .last .word

end FileTags.Query
