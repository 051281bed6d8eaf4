/-
  Quoting, seen from the whole text.

  A position of a text is quoted when an odd number of quotes stand before it.  A text is cut at
  every space, parenthesis, comma and colon that is not quoted, and what stands between two cuts
  is a piece of it.

  * `Quoted` and `CutAt` are about the positions of a text, `PieceFrom` says where a piece starts;
  * `cutTokens` are the tokens of the pieces of a text and of its cuts;
  * `lexFrom_eq` is the invariant of a reading word by word: a word that has been begun is the
    piece so far, and it is inside quotes where the whole text is;
  * `Query.lex_eq_cutTokens`: what is read word by word is the text cut as a whole, and the word
    that is reported is the one with the last quote.
-/
import FileTags.Query.Token
import Mathlib.Data.List.Induction

namespace FileTags.Query

/-! ## Cutting a text -/

/-- The characters that a text is cut at, with their tokens. -/
def cutters : List (Char × List Token) :=
  [(' ', []), ('(', [.startParen]), (')', [.endParen]), (',', [.or]), (':', [.colon])]

/-- The words that stand for something else if they are written without quotes. -/
def keywords : List (String × List Token) := [("or", [.or]), ("not", [.not]), ("and", [])]

/-- An odd number of quotes stand before a position. -/
def Quoted (text : List Char) (i : Nat) : Prop := (text.take i).count '"' % 2 = 1

instance (text : List Char) (i : Nat) : Decidable (Quoted text i) :=
  inferInstanceAs (Decidable (_ = _))

/-- At a position stands an unquoted character that a text is cut at. -/
def CutAt (text : List Char) (i : Nat) : Prop :=
  ¬ Quoted text i ∧ text[i]?.any fun c => (cutters.lookup c).isSome

instance (text : List Char) (i : Nat) : Decidable (CutAt text i) :=
  inferInstanceAs (Decidable (_ ∧ _))

/-- The characters of a text, each with whether the text is cut there. -/
def marks (text : List Char) : List (Char × Bool) :=
  text.zipIdx.map fun (c, i) => (c, decide (CutAt text i))

/-- What stands before the first cut, and every cut with what stands behind it. -/
def pieces : List (Char × Bool) → List Char × List (Char × List Char)
  | [] => ([], [])
  | (c, true) :: rest => ([], (c, (pieces rest).1) :: (pieces rest).2)
  | (c, false) :: rest => (c :: (pieces rest).1, (pieces rest).2)

/-- The tokens of a piece: none of an empty one, and of any other the word without its quotes,
    unless that is a keyword and there are none. -/
def pieceTokens (piece : List Char) : List Token :=
  if piece = [] then []
  else if '"' ∈ piece then [.word (String.ofList (piece.filter (· ≠ '"')))]
  else (keywords.lookup (String.ofList piece)).getD [.word (String.ofList piece)]

/-- The tokens of a cut and of the piece behind it. -/
def tokensBehind (cut : Char × List Char) : List Token :=
  (cutters.lookup cut.1).getD [] ++ pieceTokens cut.2

/-- The tokens of a text that is cut as a whole. -/
def cutTokens (text : List Char) : List Token :=
  pieceTokens (pieces (marks text)).1 ++ (pieces (marks text)).2.flatMap tokensBehind

/-- Between `s` and `k` a text is not cut, and `s` is its beginning or stands right behind a cut:
    the piece that goes on at `k`, or begins there, starts at `s`. -/
structure PieceFrom (text : List Char) (s k : Nat) : Prop where
  le : s ≤ k
  uncut : ∀ j, s ≤ j → j < k → ¬ CutAt text j
  start : ∀ j, j + 1 = s → CutAt text j

/-- A quote stands at a position, and none behind it. -/
def LastQuote (text : List Char) (i : Nat) : Prop :=
  text[i]? = some '"' ∧ ∀ j, i < j → text[j]? ≠ some '"'

variable {text : List Char} {s k : Nat} {c : Char} {piece : List Char}

/-! ## Characters and words -/

theorem lookup_cutters :
    cutters.lookup c = if isSeparator c then some (separatorToken c) else none := by
  have beq : ∀ {d : Char}, ¬ c = d → (c == d) = false := beq_eq_false_iff_ne.2
  by_cases space : c = ' '
  · subst space
    rfl
  · unfold cutters isSeparator separatorToken
    split
    · rfl
    · rfl
    · rfl
    · rfl
    · next h₁ h₂ h₃ h₄ =>
      simp [List.lookup_cons, beq space, beq h₁, beq h₂, beq h₃, beq h₄, space]

/-- A word that has been read from its first character on. -/
theorem foldl_push : piece.foldl WordState.push (.begin s) =
    ⟨s, (piece.filter (· ≠ '"')).reverse, decide (piece.count '"' % 2 = 1),
      decide ('"' ∈ piece)⟩ := by
  induction piece using List.reverseRec with
  | nil => rfl
  | append_singleton piece c ih =>
    rw [List.foldl_append, ih]
    by_cases quote : c = '"'
    · have parity : decide ((piece.count '"' + 1) % 2 = 1) = !decide (piece.count '"' % 2 = 1) := by
        rw [← decide_not, decide_eq_decide]
        omega
      subst quote
      simp only [List.foldl_cons, List.foldl_nil, WordState.push, if_true, List.filter_append,
        List.count_append, List.count_singleton_self, parity]
      simp
    · simp [WordState.push, quote, List.filter_append, Ne.symm quote]

/-- The tokens of a word without quotes. -/
theorem lookup_keywords (word : String) :
    (keywords.lookup word).getD [.word word] =
      if word = "and" then [] else if word = "or" then [.or] else if word = "not" then [.not]
      else [.word word] := by
  by_cases and : word = "and"
  · subst and
    rfl
  · by_cases or : word = "or"
    · subst or
      rfl
    · by_cases not : word = "not"
      · subst not
        rfl
      · have beq : ∀ {w : String}, ¬ word = w → (word == w) = false := beq_eq_false_iff_ne.2
        simp [keywords, List.lookup_cons, beq and, beq or, beq not, and, or, not]

/-- The tokens of a word are those of the piece that it has been read from. -/
theorem tokens_foldl_push (ne : piece ≠ []) :
    (piece.foldl WordState.push (.begin s)).tokens = pieceTokens piece := by
  rw [foldl_push, pieceTokens, if_neg ne]
  by_cases quoted : '"' ∈ piece
  · simp [WordState.tokens, WordState.text, quoted]
  · have plain : piece.filter (· ≠ '"') = piece :=
      List.filter_eq_self.2 fun c h => by
        have ne : c ≠ '"' := by
          rintro rfl
          exact quoted h
        simpa using ne
    rw [lookup_keywords, plain]
    simp [WordState.tokens, WordState.text, quoted]

/-- The word that has been begun with a piece, if anything stands in it. -/
def begun (s : Nat) (piece : List Char) : Option WordState :=
  if piece = [] then none else some (piece.foldl .push (.begin s))

theorem tokens_begun : (begun s piece).elim [] WordState.tokens = pieceTokens piece := by
  unfold begun
  split
  · next empty => rw [empty]; rfl
  · next ne => exact tokens_foldl_push ne

theorem inQuotes_begun :
    (begun s piece).any (·.inQuotes) = decide (piece.count '"' % 2 = 1) := by
  unfold begun
  split
  · next empty => rw [empty]; rfl
  · rw [foldl_push]; rfl

theorem begun_concat :
    begun s (piece ++ [c]) = some (((begun s piece).getD (.begin s)).push c) := by
  rw [begun, if_neg (by simp), List.foldl_append, begun]
  split
  · next empty => rw [empty]; rfl
  · rfl

/-! ## Positions -/

/-- What of a text stands from position `s` up to `k`. -/
def between (text : List Char) (s k : Nat) : List Char := (text.take k).drop s

theorem cutAt_iff (there : text[k]? = some c) :
    CutAt text k ↔ isSeparator c = true ∧ ¬ Quoted text k := by
  rw [CutAt, there, Option.any_some, lookup_cutters]
  cases isSeparator c <;> simp

theorem quoted_succ (there : text[k]? = some c) (ne : c ≠ '"') :
    Quoted text (k + 1) ↔ Quoted text k := by
  rw [Quoted, Quoted, List.take_add_one, there, List.count_append]
  simp [ne]

theorem quoted_length : Quoted text text.length ↔ text.count '"' % 2 = 1 := by
  rw [Quoted, List.take_length]

theorem between_self : between text k k = [] := by
  simp [between]

theorem between_succ (le : s ≤ k) (there : text[k]? = some c) :
    between text s (k + 1) = between text s k ++ [c] := by
  have inside : k < text.length := (List.getElem?_eq_some_iff.1 there).1
  rw [between, List.take_add_one, there, List.drop_append_of_le_length (by simp; omega)]
  rfl

theorem marks_drop (there : text[k]? = some c) :
    (marks text).drop k = (c, decide (CutAt text k)) :: (marks text).drop (k + 1) := by
  obtain ⟨inside, rfl⟩ := List.getElem?_eq_some_iff.1 there
  rw [List.drop_eq_getElem_cons (by simpa [marks] using inside)]
  simp [marks]

theorem ne_quote_of_isSeparator (sep : isSeparator c = true) : c ≠ '"' := by
  rintro rfl
  cases sep

theorem not_quoted_succ_of_cutAt (cut : CutAt text k) : ¬ Quoted text (k + 1) := by
  cases there : text[k]? with
  | none => simp [CutAt, there] at cut
  | some c =>
    obtain ⟨sep, free⟩ := (cutAt_iff there).1 cut
    rwa [quoted_succ there (ne_quote_of_isSeparator sep)]

namespace PieceFrom

theorem beginning : PieceFrom text 0 0 := ⟨Nat.le_refl 0, nofun, nofun⟩

theorem behind (cut : CutAt text k) : PieceFrom text (k + 1) (k + 1) where
  le := Nat.le_refl _
  uncut _ le lt := absurd lt (Nat.not_lt.2 le)
  start _ e := Nat.succ.inj e ▸ cut

theorem succ (p : PieceFrom text s k) (uncut : ¬ CutAt text k) : PieceFrom text s (k + 1) where
  le := Nat.le_succ_of_le p.le
  uncut j le lt := by
    rcases Nat.lt_succ_iff_lt_or_eq.1 lt with before | rfl
    · exact p.uncut j le before
    · exact uncut
  start := p.start

/-- No piece starts inside quotes. -/
theorem not_quoted (p : PieceFrom text s k) : ¬ Quoted text s := by
  cases s with
  | zero => simp [Quoted]
  | succ j => exact not_quoted_succ_of_cutAt (p.start j rfl)

/-- Inside a piece, quotes count from its start. -/
theorem quoted_iff (p : PieceFrom text s k) :
    Quoted text k ↔ (between text s k).count '"' % 2 = 1 := by
  have free : ¬ (text.take s).count '"' % 2 = 1 := p.not_quoted
  have halves : text.take k = text.take s ++ between text s k := by
    have halves := List.take_append_drop s (text.take k)
    rw [List.take_take, Nat.min_eq_left p.le] at halves
    exact halves.symm
  rw [Quoted, halves, List.count_append]
  omega

/-- The word that has been begun where a piece goes on. -/
theorem inQuotes_begun (p : PieceFrom text s k) :
    (begun s (between text s k)).any (·.inQuotes) = decide (Quoted text k) := by
  rw [Query.inQuotes_begun, decide_eq_decide, p.quoted_iff]

/-- A word that begins here begins at the start of the piece. -/
theorem getD_begun (p : PieceFrom text s k) (there : text[k]? = some c) :
    (begun s (between text s k)).getD (.begin k) =
      (begun s (between text s k)).getD (.begin s) := by
  unfold begun
  split
  · next empty =>
    have inside : k < text.length := (List.getElem?_eq_some_iff.1 there).1
    have same : s = k := by
      have length := congrArg List.length empty
      simp only [between, List.length_drop, List.length_take, List.length_nil] at length
      have := p.le
      omega
    rw [same]
  · rfl

end PieceFrom

/-! ## Reading word by word -/

/-- The tokens of a text from position `k` on, if its piece there starts at `s`. -/
def tokensFrom (text : List Char) (s k : Nat) : List Token :=
  pieceTokens (between text s k ++ (pieces ((marks text).drop k)).1) ++
    (pieces ((marks text).drop k)).2.flatMap tokensBehind

variable {rest : List Char}

/-- **A cut ends the word** that has been begun, and no word is open behind it. -/
theorem lexFrom_cut (p : PieceFrom text s k) (there : text[k]? = some c) (cut : CutAt text k) :
    lexFrom k (begun s (between text s k)) (c :: rest) =
      (lexFrom (k + 1) none rest).map
        (pieceTokens (between text s k) ++ separatorToken c ++ ·) := by
  obtain ⟨sep, free⟩ := (cutAt_iff there).1 cut
  rw [lexFrom, p.inQuotes_begun, tokens_begun]
  simp [sep, free]

theorem tokensFrom_cut (there : text[k]? = some c) (cut : CutAt text k) :
    tokensFrom text s k =
      pieceTokens (between text s k) ++ separatorToken c ++ tokensFrom text (k + 1) (k + 1) := by
  have sep : (cutters.lookup c).getD [] = separatorToken c := by
    rw [lookup_cutters, if_pos ((cutAt_iff there).1 cut).1, Option.getD_some]
  simp [tokensFrom, marks_drop there, cut, pieces, tokensBehind, between_self, sep]

/-- **A character that is no cut goes into the word.** -/
theorem lexFrom_uncut (p : PieceFrom text s k) (there : text[k]? = some c)
    (uncut : ¬ CutAt text k) :
    lexFrom k (begun s (between text s k)) (c :: rest) =
      lexFrom (k + 1) (begun s (between text s (k + 1))) rest := by
  have inside : (isSeparator c && !decide (Quoted text k)) = false := by
    rw [cutAt_iff there] at uncut
    simpa using uncut
  rw [lexFrom, p.inQuotes_begun, inside, p.getD_begun there, between_succ p.le there, begun_concat]
  rfl

theorem tokensFrom_uncut (p : PieceFrom text s k) (there : text[k]? = some c)
    (uncut : ¬ CutAt text k) : tokensFrom text s k = tokensFrom text s (k + 1) := by
  simp [tokensFrom, marks_drop there, uncut, pieces, between_succ p.le there]

/-- What is read of a text with an even number of quotes are these tokens; of any other it is a
    fault, which reports the last piece. -/
def ReadsAs (text : List Char) (tokens : List Token) (read : Except LexError (List Token)) : Prop :=
  if text.count '"' % 2 = 1 then ∃ s, read = .error ⟨s⟩ ∧ PieceFrom text s text.length
  else read = .ok tokens

theorem ReadsAs.map {tokens : List Token} {read : Except LexError (List Token)}
    (h : ReadsAs text tokens read) (before : List Token) :
    ReadsAs text (before ++ tokens) (read.map (before ++ ·)) := by
  unfold ReadsAs at *
  split
  · next odd =>
    rw [if_pos odd] at h
    obtain ⟨s, rfl, last⟩ := h
    exact ⟨s, rfl, last⟩
  · next even =>
    rw [if_neg even] at h
    rw [h]
    rfl

theorem start_of_begun {w : WordState} (h : begun s piece = some w) : w.start = s := by
  unfold begun at h
  split at h
  · cases h
  · obtain rfl := Option.some.inj h
    rw [foldl_push]

theorem readsAs_end (p : PieceFrom text s text.length) :
    ReadsAs text (tokensFrom text s text.length)
      (lexFrom text.length (begun s (between text s text.length)) []) := by
  have tokens : tokensFrom text s text.length = pieceTokens (between text s text.length) := by
    have marks_end : (marks text).drop text.length = [] :=
      List.drop_of_length_le (by simp [marks])
    simp [tokensFrom, marks_end, pieces]
  have quotes := p.inQuotes_begun
  rw [ReadsAs, tokens, ← tokens_begun (s := s)]
  simp only [quoted_length] at quotes
  cases h : begun s (between text s text.length) with
  | none =>
    rw [h, Option.any_none, eq_comm, decide_eq_false_iff_not] at quotes
    rw [if_neg quotes]
    rfl
  | some w =>
    rw [h, Option.any_some] at quotes
    split
    · next odd =>
      refine ⟨w.start, ?_, start_of_begun h ▸ p⟩
      simp [lexFrom, quotes, odd]
    · next even => simp [lexFrom, quotes, even]

/-- **The invariant of reading**: where a piece goes on that starts at `s`, the rest of the text is
    read as it is cut. -/
theorem lexFrom_eq (p : PieceFrom text s k) (inside : k ≤ text.length)
    (rest_eq : text.drop k = rest) :
    ReadsAs text (tokensFrom text s k) (lexFrom k (begun s (between text s k)) rest) := by
  induction rest generalizing s k with
  | nil =>
    obtain rfl : k = text.length := Nat.le_antisymm inside (List.drop_eq_nil_iff.1 rest_eq)
    exact readsAs_end p
  | cons c rest ih =>
    have there : text[k]? = some c := by
      rw [← List.head?_drop, rest_eq, List.head?_cons]
    have rest_eq : text.drop (k + 1) = rest := by
      rw [← List.drop_drop, rest_eq, List.drop_one, List.tail_cons]
    have inside : k + 1 ≤ text.length := (List.getElem?_eq_some_iff.1 there).1
    by_cases cut : CutAt text k
    · have next := ih (.behind cut) inside rest_eq
      rw [between_self] at next
      rw [lexFrom_cut p there cut, tokensFrom_cut there cut]
      exact next.map _
    · rw [lexFrom_uncut p there cut, tokensFrom_uncut p there cut]
      exact ih (p.succ cut) inside rest_eq

/-! ## The last quote -/

theorem exists_lastQuote (quote : '"' ∈ text) : ∃ i, LastQuote text i := by
  induction text with
  | nil => cases quote
  | cons c rest ih =>
    by_cases later : '"' ∈ rest
    · obtain ⟨i, there, last⟩ := ih later
      refine ⟨i + 1, there, fun j lt => ?_⟩
      obtain ⟨j, rfl⟩ := Nat.exists_eq_succ_of_ne_zero (Nat.ne_zero_of_lt lt)
      exact last j (Nat.lt_of_succ_lt_succ lt)
    · have first : '"' = c := (List.mem_cons.1 quote).resolve_right later
      refine ⟨0, congrArg some first.symm, fun j lt => ?_⟩
      obtain ⟨j, rfl⟩ := Nat.exists_eq_succ_of_ne_zero (Nat.ne_zero_of_lt lt)
      exact fun there => later (List.mem_of_getElem? there)

/-- In a text with an odd number of quotes, the last quote stands in the last piece. -/
theorem lastQuote_in_last_piece (odd : text.count '"' % 2 = 1) (p : PieceFrom text s text.length) :
    ∃ i, LastQuote text i ∧ PieceFrom text s i := by
  obtain ⟨i, there, last⟩ := exists_lastQuote (List.count_pos_iff.1 (by omega) : '"' ∈ text)
  have inside : i < text.length := (List.getElem?_eq_some_iff.1 there).1
  have le : s ≤ i := by
    by_contra before
    -- All quotes would stand before the piece, where quotes are balanced.
    have none_left : (between text s text.length).count '"' = 0 := by
      refine List.count_eq_zero.2 fun h => ?_
      obtain ⟨j, hj⟩ := List.mem_iff_getElem?.1 h
      rw [between, List.take_length, List.getElem?_drop] at hj
      exact last (s + j) (by omega) hj
    rw [← quoted_length, p.quoted_iff, none_left] at odd
    cases odd
  exact ⟨i, ⟨there, last⟩, le, fun j hj lt => p.uncut j hj (Nat.lt_trans lt inside), p.start⟩

/-- **A text is read as it is cut as a whole.**  If it has an odd number of quotes, the fault
    reports where the word starts that the last of them stands in. -/
theorem lex_eq_cutTokens (text : String) :
    if text.toList.count '"' % 2 = 1 then
      ∃ s i, lex text = .error ⟨s⟩ ∧ LastQuote text.toList i ∧ PieceFrom text.toList s i
    else lex text = .ok (cutTokens text.toList) := by
  have beginning : PieceFrom text.toList 0 0 := .beginning
  have reads := lexFrom_eq beginning (Nat.zero_le _) rfl
  rw [between_self] at reads
  split
  · next odd =>
    rw [ReadsAs, if_pos odd] at reads
    obtain ⟨s, fault, last⟩ := reads
    obtain ⟨i, quote, word⟩ := lastQuote_in_last_piece odd last
    exact ⟨s, i, fault, quote, word⟩
  · next even =>
    rw [ReadsAs, if_neg even] at reads
    exact reads

example : cutTokens "x\" y\"or,\"and\" and \"\"".toList =
    [.word "x yor", .or, .word "and", .word ""] := by decide

end FileTags.Query
