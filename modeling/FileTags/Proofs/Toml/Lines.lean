/-
  Lines of documents are read back as they are written.

  * `WrittenFor` says that a text stands for a value at the end of a line; arrays of strings,
    integers and truth values are written so;
  * `line_writeMember` and `line_writeHeader`: what one line does to what has been named;
  * `Reading` says what some lines do, and `Reading.append` what more of them do;
  * `parse_of_reading`: a document is the table that its lines make.
-/
import FileTags.Proofs.Toml.Values

namespace FileTags.Toml

open Text Number

variable {cs ds rest : List Char} {name : String} {v : Value} {s s' s'' : Scope}

/-! ## Values at the end of a line -/

/-- A text stands for a value at the end of a line. -/
structure WrittenFor (v : Value) (cs : List Char) : Prop where
  ne : cs ≠ []
  starts : ∀ c ∈ cs.head?, isSpace c = false
  read : ∀ budget rest, cs.length ≤ budget →
    value budget (cs ++ '\n' :: rest) = .ok (v, '\n' :: rest)

theorem length_writeStrings (items : List String) :
    items.length + 1 < (writeStrings items).length := by
  cases items with
  | nil => decide
  | cons s items =>
    have : ∀ items : List String, items.length ≤ (items.flatMap writeItem).length := fun items => by
      induction items with
      | nil => exact Nat.le_refl _
      | cons s items ih =>
        rw [List.flatMap_cons, List.length_append, List.length_cons]
        have : 0 < (writeItem s).length := by simp [writeItem]
        omega
    have := this (s :: items)
    simp only [writeStrings, List.length_append, List.length_cons, List.length_nil] at this ⊢
    omega

theorem writtenFor_strings (items : List String) :
    WrittenFor (.array (items.map .string)) (writeStrings items) where
  ne := by cases items <;> exact List.cons_ne_nil _ _
  starts := by cases items <;> (rintro c ⟨⟩; decide)
  read := fun budget rest enough =>
    value_writeStrings items _ (Nat.lt_of_lt_of_le (length_writeStrings items) enough)

theorem writtenFor_integer (n : Int) (few : (Nat.toDigits 10 n.natAbs).length ≤ digitLimit) :
    WrittenFor (.integer n) (toString n).toList where
  ne := by rw [toList_toString]; split <;> simp
  starts := by
    rw [toList_toString]
    split
    next => rintro c ⟨⟩; decide
    next =>
      intro c first
      have digit := areDigits_toDigits n.natAbs c (List.mem_of_mem_head? first)
      refine Bool.eq_false_iff.2 fun space => ?_
      simp only [isSpace, Bool.or_eq_true, decide_eq_true_eq] at space
      rcases space with rfl | rfl <;> cases digit
  read := fun budget rest enough => by
    have pos : 0 < (toString n).toList.length := by
      rw [toList_toString]
      split
      · exact Nat.succ_pos _
      · exact Nat.length_toDigits_pos
    obtain ⟨budget, rfl⟩ := Nat.exists_eq_succ_of_ne_zero (by omega : budget ≠ 0)
    exact value_toString n few rest

theorem writtenFor_boolean (b : Bool) : WrittenFor (.boolean b) (toString b).toList where
  ne := by cases b <;> exact List.cons_ne_nil _ _
  starts := by cases b <;> (rintro c ⟨⟩; decide)
  read := fun budget rest enough => by
    have pos : 0 < (toString b).toList.length := by cases b <;> decide
    obtain ⟨budget, rfl⟩ := Nat.exists_eq_succ_of_ne_zero (by omega : budget ≠ 0)
    exact value_flag b rest

/-! ## Lines -/

/-- No key starts with a character that means something at the start of a line. -/
theorem isBare_of_mark : ∀ c ∈ [' ', '\t', '\n', '#', '['], c ≠ '"' ∧ isBare c = false := by
  simp [isBare]

theorem head_writeKey_ne (name : String) (rest : List Char) :
    ∃ c cs, writeKey name ++ rest = c :: cs ∧ c ∉ [' ', '\t', '\n', '#', '['] := by
  obtain ⟨c, cs, written, first⟩ := head_writeKey name
  refine ⟨c, cs ++ rest, by rw [written, List.cons_append], fun mark => ?_⟩
  obtain ⟨quote, bare⟩ := isBare_of_mark c mark
  rcases first with rfl | bare'
  · exact quote rfl
  · cases bare.symm.trans bare'

theorem skipSpaces_of_starts (starts : ∀ c ∈ cs.head?, isSpace c = false) : skipSpaces cs = cs := by
  cases cs with
  | nil => rfl
  | cons c cs => simp [skipSpaces, starts c rfl]

theorem writeMember_append : writeMember name cs ++ rest =
    writeKey name ++ ' ' :: '=' :: ' ' :: (cs ++ '\n' :: rest) := by
  simp [writeMember]

/-- A line of a member is read back. -/
theorem pair_writeMember (name : String) (written : WrittenFor v cs) (rest : List Char) :
    pair ((writeMember name cs ++ rest).length + 1) (writeMember name cs ++ rest) =
      .ok (([name], v), '\n' :: rest) := by
  have enough : cs.length ≤ (writeMember name cs ++ rest).length := by
    simp only [writeMember, List.length_append]
    omega
  obtain ⟨budget, size⟩ : ∃ b, (writeMember name cs ++ rest).length = b + 1 :=
    Nat.exists_eq_succ_of_ne_zero (by simp [writeMember])
  have starts : skipSpaces (' ' :: (cs ++ '\n' :: rest)) = cs ++ '\n' :: rest := by
    obtain ⟨c, cs, rfl⟩ := List.exists_cons_of_ne_nil written.ne
    have kept : skipSpaces (c :: (cs ++ '\n' :: rest)) = c :: (cs ++ '\n' :: rest) :=
      skipSpaces_of_starts written.starts
    exact kept
  have named : key (writeMember name cs ++ rest).length (writeMember name cs ++ rest) =
      .ok ([name], '=' :: ' ' :: (cs ++ '\n' :: rest)) := by
    rw [size, writeMember_append]
    exact key_writeKey name (by rintro c ⟨⟩; decide) (by simp [skipSpaces, isSpace])
  rw [pair, named]
  simp only [starts, written.read _ rest enough]

/-- **The line of a member** sets it. -/
theorem line_writeMember (written : WrittenFor v cs) (assigned : s.assign [name] v = .ok s')
    (rest : List Char) : line s (writeMember name cs ++ rest) = .ok (s', '\n' :: rest) := by
  have read := pair_writeMember name written rest
  obtain ⟨c, ds, text, plain⟩ :=
    head_writeKey_ne name (' ' :: '=' :: ' ' :: (cs ++ '\n' :: rest))
  rw [← writeMember_append] at text
  rw [text] at read ⊢
  simp only [List.mem_cons, List.not_mem_nil, or_false, not_or] at plain
  have stated : statement s (c :: ds) = .ok (s', '\n' :: rest) := by
    rw [statement, read]
    · simp only [assigned, Except.map]
    · rintro _ ⟨⟩
      exact plain.2.2.2.2 rfl
    · rintro _ ⟨⟩
      exact plain.2.2.2.2 rfl
  have starts : skipSpaces (c :: ds) = c :: ds := by simp [skipSpaces, isSpace, plain]
  have last : skipComment (skipSpaces ('\n' :: rest)) = .ok ('\n' :: rest) := rfl
  rw [line, starts]
  simp only [plain, or_self, if_false, stated, last, Except.map]

/-- **The header of a table** opens it. -/
theorem line_writeHeader (opened : s.settle.openTable [name] = .ok s') (rest : List Char) :
    line s (writeHeader name ++ rest) = .ok (s', '\n' :: rest) := by
  obtain ⟨c, ds, text, plain⟩ := head_writeKey_ne name (']' :: '\n' :: rest)
  have header : writeHeader name ++ rest = '[' :: c :: ds := by rw [← text]; simp [writeHeader]
  simp only [List.mem_cons, List.not_mem_nil, or_false, not_or] at plain
  have starts : skipSpaces (c :: ds) = c :: ds := by simp [skipSpaces, isSpace, plain]
  have named : key (c :: ds).length (c :: ds) = .ok ([name], ']' :: '\n' :: rest) := by
    rw [← text, List.length_append, List.length_cons, ← Nat.add_assoc]
    exact key_writeKey name (by rintro c ⟨⟩; decide) (by simp [skipSpaces, isSpace])
  have stated : statement s ('[' :: c :: ds) = .ok (s', '\n' :: rest) := by
    rw [statement, starts, named]
    · simp only [opened, Except.map]
    · rintro _ ⟨⟩
      exact plain.2.2.2.2 rfl
  have last : skipComment (skipSpaces ('\n' :: rest)) = .ok ('\n' :: rest) := rfl
  have bracket : skipSpaces ('[' :: c :: ds) = '[' :: c :: ds := rfl
  rw [header, line, bracket]
  simp only [Char.reduceEq, or_self, if_false, stated, last, Except.map]

/-! ## Documents -/

/-- Some lines lead from one scope to another. -/
def Reading (s : Scope) (text : List Char) (s' : Scope) : Prop :=
  ∃ count ≤ text.length, ∀ budget rest,
    statements (budget + count) s (text ++ rest) = statements budget s' rest

theorem reading_nil (s : Scope) : Reading s [] s := ⟨0, Nat.le_refl 0, fun _ _ => rfl⟩

theorem Reading.append (first : Reading s cs s') (second : Reading s' ds s'') :
    Reading s (cs ++ ds) s'' := by
  obtain ⟨m, hm, first⟩ := first
  obtain ⟨n, hn, second⟩ := second
  refine ⟨n + m, ?_, fun budget rest => ?_⟩
  · rw [List.length_append]
    omega
  · rw [List.append_assoc, ← Nat.add_assoc, first, second]

/-- One line does what it is read as. -/
theorem reading_of_line (ne : cs ≠ [])
    (read : ∀ rest, line s (cs ++ rest) = .ok (s', '\n' :: rest)) : Reading s cs s' := by
  refine ⟨1, List.length_pos_iff.2 ne, fun budget rest => ?_⟩
  simp only [statements, read]

theorem reading_lineFeed (s : Scope) : Reading s ['\n'] s :=
  reading_of_line (List.cons_ne_nil _ _) fun _ => rfl

theorem joinLineEnds_of_not_mem (plain : '\r' ∉ cs) : joinLineEnds cs = cs := by
  induction cs with
  | nil => rfl
  | cons c cs ih =>
    rw [joinLineEnds, ih fun there => plain (List.mem_cons_of_mem c there)]
    rintro _ rfl -
    exact plain List.mem_cons_self

/-- **A document is the table that its lines make.** -/
theorem parse_of_reading (reading : Reading .empty cs s) (plain : '\r' ∉ cs) :
    parse cs = .ok s.root := by
  obtain ⟨count, few, read⟩ := reading
  obtain ⟨more, size⟩ : ∃ more, cs.length + 1 = more + count :=
    Nat.exists_eq_add_of_le' (Nat.le_succ_of_le few)
  have all := read more []
  rw [List.append_nil] at all
  have done : statements more s [] = .ok s := by cases more <;> rfl
  simp only [parse, joinLineEnds_of_not_mem plain, size, all, done, Except.map]

end FileTags.Toml
