/-
  Pieces of a text that stand for tokens, whatever follows them.

  A piece that ends where no word is open can be read on its own.  Such pieces are put together
  from separators and from words with a separator behind them.

  * `Query.LexesTo cs ts`: the characters `cs` stand for the tokens `ts`, whatever follows;
  * `LexesTo.append`: pieces side by side stand for their tokens side by side;
  * `lexesTo_separator`, `lexesTo_plain` and `lexesTo_quoted` are the pieces there are;
  * `LexesTo.lex`: a text that is such a piece has these tokens;
  * `lexesTo_of_lex`: every text that has tokens is such a piece, with a separator behind it;
  * `lex_of_lexesTo_space`: a text may be read with a space behind it;
  * `lex_append_separator` and `lex_intercalate`: texts that have tokens, with a separator between
    two and with spaces between many.
-/
import FileTags.Query.Token
import Mathlib.Data.List.Forall2

namespace FileTags.Query

/-- Characters that stand for tokens, whatever follows them. -/
def LexesTo (cs : List Char) (ts : List Token) : Prop :=
  ∀ pos rest, lexFrom pos none (cs ++ rest) =
    (lexFrom (pos + cs.length) none rest).map (ts ++ ·)

variable {cs cs' word rest : List Char} {ts ts' : List Token} {c : Char} {w : WordState}
  {pos : Nat}

theorem lexesTo_nil : LexesTo [] [] := by
  intro pos rest
  cases h : lexFrom pos none rest <;> simp [Except.map, h]

theorem LexesTo.append (h : LexesTo cs ts) (h' : LexesTo cs' ts') :
    LexesTo (cs ++ cs') (ts ++ ts') := by
  intro pos rest
  rw [List.append_assoc, h, h', List.length_append, Nat.add_assoc]
  cases lexFrom (pos + (cs.length + cs'.length)) none rest with
  | error e => rfl
  | ok tokens => simp [Except.map]

theorem LexesTo.lex {text : String} (h : LexesTo text.toList ts) : lex text = .ok ts := by
  have whole := h 0 []
  rw [List.append_nil] at whole
  rw [Query.lex, whole]
  simp [lexFrom, Except.map]

/-! ## Separators -/

theorem lexesTo_separator (sep : isSeparator c = true) : LexesTo [c] (separatorToken c) := by
  intro pos rest
  simp [lexFrom, sep]

/-! ## Words -/

/-- A character that does not end a word: it is no separator, or stands between quotes. -/
theorem lexFrom_step (inside : isSeparator c = false ∨ w.inQuotes = true) :
    lexFrom pos (some w) (c :: rest) = lexFrom (pos + 1) (some (w.push c)) rest := by
  rcases inside with h | h <;> simp [lexFrom, h]

/-- Characters that are no quotes and do not end a word go into it. -/
theorem lexFrom_append (free : '"' ∉ word)
    (inside : ∀ c ∈ word, isSeparator c = false ∨ w.inQuotes = true) :
    lexFrom pos (some w) (word ++ rest) = lexFrom (pos + word.length)
      (some { w with reversed := word.reverse ++ w.reversed }) rest := by
  induction word generalizing w pos with
  | nil => rfl
  | cons c word ih =>
    obtain ⟨ne, free⟩ : '"' ≠ c ∧ '"' ∉ word := by simpa using free
    obtain ⟨first, inside⟩ := List.forall_mem_cons.1 inside
    have push : w.push c = { w with reversed := c :: w.reversed } := by
      simp [WordState.push, Ne.symm ne]
    have inside : ∀ d ∈ word, isSeparator d = false ∨ (w.push c).inQuotes = true := by
      rw [push]
      exact inside
    rw [List.cons_append, lexFrom_step first, ih free inside, push]
    simp [Nat.add_assoc, Nat.add_comm 1]

/-- The tokens of a word without quotes. -/
def plainTokens (word : List Char) : List Token := WordState.tokens ⟨0, word.reverse, false, false⟩

/-- A word without quotes, with a separator behind it. -/
theorem lexesTo_plain (word : List Char) (ne : word ≠ []) (free : '"' ∉ word)
    (inside : ∀ c ∈ word, isSeparator c = false) (sep : isSeparator c = true) :
    LexesTo (word ++ [c]) (plainTokens word ++ separatorToken c) := by
  intro pos rest
  obtain ⟨d, word, rfl⟩ := List.exists_cons_of_ne_nil ne
  have first : isSeparator d = false := inside d List.mem_cons_self
  have opened : lexFrom pos none (d :: (word ++ c :: rest)) =
      lexFrom pos (some (.begin pos)) (d :: (word ++ c :: rest)) := by
    rw [lexFrom_step (Or.inl first)]
    simp [lexFrom, first]
  have text : (d :: word) ++ [c] ++ rest = d :: (word ++ c :: rest) := by simp
  rw [text, opened, ← List.cons_append, lexFrom_append free fun c h => Or.inl (inside c h)]
  simp [lexFrom, sep, plainTokens, WordState.tokens, WordState.text, WordState.begin, Nat.add_assoc]

/-- A word in quotes, with a separator behind it. -/
theorem lexesTo_quoted (free : '"' ∉ word) (sep : isSeparator c = true) :
    LexesTo ('"' :: word ++ ['"', c]) (.word (String.ofList word) :: separatorToken c) := by
  intro pos rest
  have opened : lexFrom pos none ('"' :: (word ++ '"' :: c :: rest)) =
      lexFrom (pos + 1) (some ⟨pos, [], true, true⟩) (word ++ '"' :: c :: rest) := rfl
  have text : ('"' :: word ++ ['"', c]) ++ rest = '"' :: (word ++ '"' :: c :: rest) := by simp
  rw [text, opened, lexFrom_append free fun _ _ => Or.inr rfl, lexFrom_step (Or.inr rfl)]
  simp [lexFrom, sep, WordState.push, WordState.tokens, WordState.text, Nat.add_assoc,
    Nat.add_comm 1]

/-! ## Operators -/

/-- The operator `not` with a space behind it. -/
theorem lexesTo_not : LexesTo ['n', 'o', 't', ' '] [.not] := by
  have inside : ∀ c ∈ ['n', 'o', 't'], isSeparator c = false := by
    simp [isSeparator, separatorToken]
  exact lexesTo_plain ['n', 'o', 't'] (List.cons_ne_nil _ _) (by decide) inside rfl

/-- The operator `or` with a space behind it. -/
theorem lexesTo_orWord : LexesTo ['o', 'r', ' '] [.or] := by
  have inside : ∀ c ∈ ['o', 'r'], isSeparator c = false := by
    simp [isSeparator, separatorToken]
  exact lexesTo_plain ['o', 'r'] (List.cons_ne_nil _ _) (by decide) inside rfl

/-- The operator `or` between spaces. -/
theorem lexesTo_or : LexesTo [' ', 'o', 'r', ' '] [.or] := by
  have space : LexesTo [' '] [] := lexesTo_separator rfl
  exact space.append lexesTo_orWord

/-! ## Texts with a separator behind them -/

/-- A word that begins at another position. -/
def WordState.movedTo (w : WordState) (start : Nat) : WordState := { w with start }

theorem push_movedTo {start : Nat} : (w.movedTo start).push c = (w.push c).movedTo start := by
  unfold WordState.push
  split <;> rfl

theorem any_inQuotes_movedTo {word : Option WordState} {start : Nat} :
    (word.map (·.movedTo start)).any (·.inQuotes) = word.any (·.inQuotes) := by
  cases word <;> rfl

theorem elim_tokens_movedTo {word : Option WordState} {start : Nat} :
    (word.map (·.movedTo start)).elim [] WordState.tokens = word.elim [] WordState.tokens := by
  cases word <;> rfl

/-- One more character makes the same word at another position. -/
theorem getD_push_movedTo (word : Option WordState) (pos pos' start : Nat) :
    ∃ start', ((word.map (WordState.movedTo · start)).getD (.begin pos')).push c =
      ((word.getD (.begin pos)).push c).movedTo start' := by
  cases word with
  | none => exact ⟨pos', push_movedTo (w := .begin pos)⟩
  | some w => exact ⟨start, push_movedTo⟩

theorem closed_of_lexFrom_nil {word : Option WordState} (read : lexFrom pos word [] = .ok ts) :
    word.any (·.inQuotes) = false ∧ word.elim [] WordState.tokens = ts := by
  cases word with
  | none => exact ⟨rfl, Except.ok.inj read⟩
  | some w =>
    simp only [lexFrom] at read
    split at read
    · cases read
    · next closed => exact ⟨by simpa using closed, Except.ok.inj read⟩

/-- What has tokens has them wherever it stands, and a separator behind it ends its last word. -/
theorem lexFrom_append_separator {word : Option WordState} (read : lexFrom pos word cs = .ok ts)
    (sep : isSeparator c = true) (pos' start : Nat) :
    lexFrom pos' (word.map (·.movedTo start)) (cs ++ c :: rest) =
      (lexFrom (pos' + cs.length + 1) none rest).map (ts ++ separatorToken c ++ ·) := by
  induction cs generalizing pos pos' start word ts with
  | nil =>
    obtain ⟨closed, tokens⟩ := closed_of_lexFrom_nil read
    rw [List.nil_append, lexFrom, any_inQuotes_movedTo, elim_tokens_movedTo, closed, tokens, sep]
    rfl
  | cons d cs ih =>
    have length : pos' + (d :: cs).length + 1 = pos' + 1 + cs.length + 1 := by
      rw [List.length_cons]
      omega
    rw [lexFrom] at read
    rw [List.cons_append, lexFrom, any_inQuotes_movedTo, elim_tokens_movedTo, length]
    split at read
    · next cut =>
      rw [if_pos cut]
      cases later : lexFrom (pos + 1) none cs with
      | error e => rw [later] at read; cases read
      | ok ts' =>
        rw [later] at read
        obtain rfl := Except.ok.inj read
        have next := ih later (pos' + 1) start
        rw [Option.map_none] at next
        rw [next]
        cases lexFrom (pos' + 1 + cs.length + 1) none rest <;> simp [Except.map]
    · next inside =>
      rw [if_neg inside]
      obtain ⟨start', moved⟩ := getD_push_movedTo (c := d) word pos pos' start
      rw [moved]
      exact ih read (pos' + 1) start'

/-- **A text that has tokens stands for them** wherever a separator follows it. -/
theorem lexesTo_of_lex {text : String} (read : lex text = .ok ts) (sep : isSeparator c = true) :
    LexesTo (text.toList ++ [c]) (ts ++ separatorToken c) := by
  intro pos rest
  rw [List.append_assoc, List.length_append]
  exact lexFrom_append_separator read sep pos 0

/-- A space at the end of a text changes nothing. -/
theorem lexFrom_append_space (pos : Nat) (word : Option WordState) (cs : List Char) :
    lexFrom pos word (cs ++ [' ']) = lexFrom pos word cs := by
  induction cs generalizing pos word with
  | nil =>
    cases word with
    | none => rfl
    | some w =>
      cases inside : w.inQuotes with
      | false => simp [lexFrom, isSeparator, separatorToken, inside, Except.map]
      | true => simp [lexFrom, inside, WordState.push]
  | cons c cs ih => rw [List.cons_append, lexFrom, lexFrom, ih, ih]

theorem lex_of_lexesTo_space {text : String} (h : LexesTo (text.toList ++ [' ']) ts) :
    lex text = .ok ts := by
  have spaced : lex (text ++ " ") = .ok ts := LexesTo.lex (by simpa using h)
  rw [lex, ← lexFrom_append_space]
  simpa [lex] using spaced

/-! ## Texts side by side -/

/-- **A separator keeps texts apart**: nothing of one goes over to the other. -/
theorem lex_append_separator {a b : String} (left : lex a = .ok ts) (right : lex b = .ok ts')
    (sep : isSeparator c = true) :
    lex (a ++ String.singleton c ++ b) = .ok (ts ++ separatorToken c ++ ts') := by
  have front : LexesTo (a.toList ++ [c]) (ts ++ separatorToken c) := lexesTo_of_lex left sep
  have back : LexesTo (b.toList ++ [' ']) (ts' ++ separatorToken ' ') := lexesTo_of_lex right rfl
  refine lex_of_lexesTo_space ?_
  simpa [separatorToken] using front.append back

/-- Texts with spaces between them have the tokens of each, one after the other. -/
theorem lex_intercalate {texts : List String} {tokens : List (List Token)}
    (read : List.Forall₂ (fun text ts => lex text = .ok ts) texts tokens) :
    lex (" ".intercalate texts) = .ok tokens.flatten := by
  induction read with
  | nil => rfl
  | cons first rest ih =>
    cases rest with
    | nil => simpa using first
    | cons second rest =>
      have space : String.singleton ' ' = " " := by decide
      have both := lex_append_separator first ih (rfl : isSeparator ' ' = true)
      rw [space] at both
      rw [String.intercalate_cons_cons]
      simpa [separatorToken] using both

end FileTags.Query
