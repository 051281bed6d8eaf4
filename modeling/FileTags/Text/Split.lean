/-
  Cutting a text at a character, and joining pieces again.

  * `splitOn sep` cuts at every `sep`: there is one piece more than there are cuts
    (`splitOn_ne_nil`, `length_splitOn`), no piece holds a `sep` (`not_mem_of_mem_splitOn`), the
    pieces joined by `sep` are the text (`join_splitOn`), and pieces that were joined are found
    again, each cut in its turn (`splitOn_join`, `splitOn_join_eq_flatMap`);
  * `join sep` puts `sep` between pieces;
  * `lines` are the pieces between line feeds, each with its line feed but the last.
-/

namespace FileTags.Text

variable {α : Type} [DecidableEq α]

/-- The pieces of a text between the occurrences of `sep`. -/
def splitOn (sep : α) : List α → List (List α)
  | [] => [[]]
  | c :: cs =>
    if c = sep then [] :: splitOn sep cs
    else match splitOn sep cs with
      | [] => [[c]]
      | piece :: pieces => (c :: piece) :: pieces

/-- The pieces one after the other, with `sep` between neighbours. -/
def join (sep : List α) : List (List α) → List α
  | [] => []
  | [piece] => piece
  | piece :: pieces => piece ++ sep ++ join sep pieces

theorem splitOn_ne_nil (sep : α) (cs : List α) : splitOn sep cs ≠ [] := by
  cases cs with
  | nil => simp [splitOn]
  | cons c cs =>
    rw [splitOn]
    split
    · simp
    · split <;> simp

theorem not_mem_of_mem_splitOn {sep : α} {cs piece : List α} (h : piece ∈ splitOn sep cs) :
    sep ∉ piece := by
  induction cs generalizing piece with
  | nil => simp_all [splitOn]
  | cons c cs ih =>
    rw [splitOn] at h
    split at h
    · rcases List.mem_cons.1 h with rfl | h
      · simp
      · exact ih h
    · next hc =>
      split at h
      · next e => exact absurd e (splitOn_ne_nil sep cs)
      · next first rest e =>
        rcases List.mem_cons.1 h with rfl | h
        · have : sep ∉ first := ih (by simp [e])
          simp [this, Ne.symm hc]
        · exact ih (by simp [e, h])

omit [DecidableEq α] in
theorem join_cons_cons (sep piece next : List α) (pieces : List (List α)) :
    join sep (piece :: next :: pieces) = piece ++ sep ++ join sep (next :: pieces) := rfl

omit [DecidableEq α] in
/-- No piece is lost. -/
theorem sublist_join {sep piece : List α} {pieces : List (List α)} (there : piece ∈ pieces) :
    piece.Sublist (join sep pieces) := by
  induction pieces with
  | nil => cases there
  | cons first pieces ih =>
    cases pieces with
    | nil => exact List.mem_singleton.1 there ▸ List.Sublist.refl _
    | cons next pieces =>
      rw [join_cons_cons]
      rcases List.mem_cons.1 there with rfl | there
      · exact (List.sublist_append_left _ _).trans (List.sublist_append_left _ _)
      · exact (ih there).trans (List.sublist_append_right _ _)

/-- **Cutting and joining.** The pieces joined again are the text. -/
theorem join_splitOn (sep : α) (cs : List α) : join [sep] (splitOn sep cs) = cs := by
  induction cs with
  | nil => rfl
  | cons c cs ih =>
    rw [splitOn]
    split
    · next hc =>
      subst hc
      cases e : splitOn c cs with
      | nil => exact absurd e (splitOn_ne_nil c cs)
      | cons first rest => rw [join_cons_cons, ← e, ih]; rfl
    · cases e : splitOn sep cs with
      | nil => exact absurd e (splitOn_ne_nil sep cs)
      | cons first rest =>
        rw [e] at ih
        cases rest with
        | nil => simpa [join] using ih
        | cons next rest => simpa [join] using ih

theorem splitOn_of_not_mem {sep : α} {cs : List α} (h : sep ∉ cs) : splitOn sep cs = [cs] := by
  induction cs with
  | nil => rfl
  | cons c cs ih =>
    obtain ⟨hc, hcs⟩ : sep ≠ c ∧ sep ∉ cs := by simpa using h
    rw [splitOn, if_neg (Ne.symm hc), ih hcs]

theorem splitOn_append_cons {sep : α} {cs ds : List α} (h : sep ∉ cs) :
    splitOn sep (cs ++ sep :: ds) = cs :: splitOn sep ds := by
  induction cs with
  | nil => simp [splitOn]
  | cons c cs ih =>
    obtain ⟨hc, hcs⟩ : sep ≠ c ∧ sep ∉ cs := by simpa using h
    rw [List.cons_append, splitOn, if_neg (Ne.symm hc), ih hcs]

/-- **Joining and cutting.** Pieces that do not hold the separator are found again. -/
theorem splitOn_join {sep : α} {pieces : List (List α)} (ne : pieces ≠ [])
    (h : ∀ piece ∈ pieces, sep ∉ piece) : splitOn sep (join [sep] pieces) = pieces := by
  induction pieces with
  | nil => exact absurd rfl ne
  | cons piece pieces ih =>
    cases pieces with
    | nil => exact splitOn_of_not_mem (h piece (by simp))
    | cons next pieces =>
      rw [join_cons_cons, List.append_assoc, List.singleton_append,
        splitOn_append_cons (h piece (by simp)), ih (by simp) fun p hp => h p (by simp [hp])]

theorem splitOn_append_separator (sep : α) (cs ds : List α) :
    splitOn sep (cs ++ sep :: ds) = splitOn sep cs ++ splitOn sep ds := by
  induction cs with
  | nil => simp [splitOn]
  | cons c cs ih =>
    rw [List.cons_append, splitOn, splitOn, ih]
    split
    · rfl
    · cases e : splitOn sep cs with
      | nil => exact absurd e (splitOn_ne_nil sep cs)
      | cons first rest => rfl

theorem splitOn_join_eq_flatMap {sep : α} {pieces : List (List α)} (ne : pieces ≠ []) :
    splitOn sep (join [sep] pieces) = pieces.flatMap (splitOn sep) := by
  induction pieces with
  | nil => exact absurd rfl ne
  | cons piece pieces ih =>
    cases pieces with
    | nil => simp [join]
    | cons next pieces =>
      rw [join_cons_cons, List.append_assoc, List.singleton_append, splitOn_append_separator,
        ih (by simp)]
      rfl

theorem length_splitOn (sep : α) (cs : List α) :
    (splitOn sep cs).length = cs.count sep + 1 := by
  induction cs with
  | nil => rfl
  | cons c cs ih =>
    rw [splitOn, List.count_cons]
    split
    · next same => simp [same, ih]
    · next other =>
      cases e : splitOn sep cs with
      | nil => exact absurd e (splitOn_ne_nil sep cs)
      | cons first rest => simpa [e, other] using ih

omit [DecidableEq α] in
theorem count_join [BEq α] {sep : List α} {c : α} (free : sep.count c = 0)
    (pieces : List (List α)) : (join sep pieces).count c = pieces.flatten.count c := by
  induction pieces with
  | nil => rfl
  | cons piece pieces ih =>
    cases pieces with
    | nil => simp [join]
    | cons next pieces =>
      rw [join_cons_cons, List.count_append, List.count_append, free, ih, Nat.add_zero,
        ← List.count_append, ← List.flatten_cons]

/-! ## Lines -/

/-- The lines of a text: each ends with its line feed, the last one perhaps with the text. -/
def lines : List Char → List (List Char)
  | [] => []
  | c :: cs =>
    if c = '\n' then [c] :: lines cs
    else match lines cs with
      | [] => [[c]]
      | line :: rest => (c :: line) :: rest

/-- **Nothing is lost.** The lines one after the other are the text. -/
theorem flatten_lines (cs : List Char) : (lines cs).flatten = cs := by
  induction cs with
  | nil => rfl
  | cons c cs ih =>
    rw [lines]
    split
    · simp [ih]
    · split
      · next e => rw [e] at ih; simpa using ih
      · next line rest e => rw [e] at ih; simpa using ih

end FileTags.Text
