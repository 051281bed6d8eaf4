/-
  Arrays of strings and integers are read back as they are written.

  * `skipGaps_append`: white space goes up to what is none;
  * `value_writeStrings`: an array of strings is read back, whatever follows it;
  * `value_toString`: so is an integer before the end of a line.
-/
import FileTags.Proofs.Toml.Strings

namespace FileTags.Toml

open Text Number

variable {cs rest gap : List Char} {s : String} {items : List String} {n budget : Nat}

/-! ## White space -/

/-- What is neither white space nor the start of a comment. -/
def Starts (cs : List Char) : Prop := ∀ c ∈ cs.head?, isGap c = false ∧ c ≠ '#'

theorem skipComment_of_ne (plain : cs.head? ≠ some '#') : skipComment cs = .ok cs := by
  unfold skipComment
  split
  next => simp at plain
  next => rfl

theorem skipGaps_of_starts (starts : Starts cs) (n : Nat) : skipGaps n cs = .ok cs := by
  cases n with
  | zero => rfl
  | succ n =>
    have kept : cs.dropWhile isGap = cs := by
      cases cs with
      | nil => rfl
      | cons c cs => simp [(starts c rfl).1]
    have plain : cs.head? ≠ some '#' := fun e => (starts '#' e).2 rfl
    rw [skipGaps, kept, skipComment_of_ne plain]
    simp

/-- White space is skipped up to what is none. -/
theorem skipGaps_append (blank : ∀ c ∈ gap, isGap c = true) (starts : Starts cs) (enough : 0 < n) :
    skipGaps n (gap ++ cs) = .ok cs := by
  obtain ⟨n, rfl⟩ := Nat.exists_eq_succ_of_ne_zero (Nat.ne_of_gt enough)
  have dropped : (gap ++ cs).dropWhile isGap = cs := by
    rw [List.dropWhile_append_of_pos blank]
    cases cs with
    | nil => rfl
    | cons c cs => simp [(starts c rfl).1]
  have plain : cs.head? ≠ some '#' := fun e => (starts '#' e).2 rfl
  rw [skipGaps, dropped, skipComment_of_ne plain]
  simp only [skipGaps_of_starts starts, ite_self]

/-! ## Arrays of strings -/

theorem value_writeString (s : String) (stop : rest.head? ≠ some '"') :
    value (budget + 1) (writeString s ++ rest) = .ok (.string s, rest) := by
  have read := quotedString_writeString s stop
  rw [writeString_append] at read ⊢
  rw [value, read]
  simp [Except.map]

/-- The items of an array from the first one on, without the white space in front of it. -/
def openItems : List String → List Char → List Char
  | [], rest => ']' :: rest
  | s :: items, rest =>
    writeString s ++ ',' :: '\n' :: (items.flatMap writeItem ++ ']' :: rest)

theorem starts_openItems (items : List String) (rest : List Char) :
    Starts (openItems items rest) := by
  cases items with
  | nil => rintro c ⟨⟩; decide
  | cons s items =>
    rw [openItems, writeString_append]
    rintro c ⟨⟩
    decide

theorem flatMap_writeItem (items : List String) (rest : List Char) :
    ∃ gap, (∀ c ∈ gap, isGap c = true) ∧
      items.flatMap writeItem ++ ']' :: rest = gap ++ openItems items rest := by
  cases items with
  | nil => exact ⟨[], List.forall_mem_nil _, rfl⟩
  | cons s items =>
    refine ⟨"    ".toList, by simp [isGap, isSpace], ?_⟩
    simp [writeItem, openItems]

/-- The white space before the items of an array is skipped. -/
theorem skipGaps_items (items : List String) (rest : List Char) :
    skipGaps ('\n' :: (items.flatMap writeItem ++ ']' :: rest)).length
      ('\n' :: (items.flatMap writeItem ++ ']' :: rest)) = .ok (openItems items rest) := by
  obtain ⟨gap, blank, same⟩ := flatMap_writeItem items rest
  rw [same, ← List.cons_append]
  refine skipGaps_append (fun c there => ?_) (starts_openItems items rest) (Nat.succ_pos _)
  rcases List.mem_cons.1 there with rfl | there
  · decide
  · exact blank c there

/-- The items of an array are read back one after the other. -/
theorem arrayItems_openItems (items : List String) (rest : List Char)
    (enough : items.length < budget) :
    arrayItems budget (openItems items rest) = .ok (.array (items.map .string), rest) := by
  induction items generalizing budget with
  | nil =>
    obtain ⟨budget, rfl⟩ := Nat.exists_eq_succ_of_ne_zero (Nat.ne_of_gt enough)
    rw [openItems, arrayItems]
    rfl
  | cons s items ih =>
    obtain ⟨budget, rfl⟩ : ∃ b, budget = b + 2 := ⟨budget - 2, by simp at enough; omega⟩
    have comma : Starts (',' :: '\n' :: (items.flatMap writeItem ++ ']' :: rest)) := by
      rintro c ⟨⟩
      decide
    have later : arrayItems (budget + 1) (openItems items rest) =
        .ok (.array (items.map .string), rest) := ih (by simp at enough; omega)
    rw [openItems, arrayItems, value_writeString s (by simp)]
    · simp only [skipGaps_of_starts comma, skipGaps_items, later]
      rfl
    · rw [writeString_append]
      rintro _ ⟨⟩

/-- **A written array of strings is read back.** -/
theorem value_writeStrings (items : List String) (rest : List Char)
    (enough : items.length + 1 < budget) :
    value budget (writeStrings items ++ rest) = .ok (.array (items.map .string), rest) := by
  obtain ⟨budget, rfl⟩ : ∃ b, budget = b + 1 := ⟨budget - 1, by omega⟩
  have read := arrayItems_openItems items rest (Nat.lt_of_succ_lt_succ enough)
  cases items with
  | nil =>
    have starts : Starts (']' :: rest) := starts_openItems [] rest
    simp only [writeStrings, List.cons_append, List.nil_append, value, skipGaps_of_starts starts]
    exact read
  | cons s items =>
    have opened : writeStrings (s :: items) ++ rest =
        '[' :: '\n' :: ((s :: items).flatMap writeItem ++ ']' :: rest) := by simp [writeStrings]
    simp only [opened, value, skipGaps_items]
    exact read

/-! ## Digits -/

/-- Characters that are digits in base ten. -/
def AreDigits (cs : List Char) : Prop := ∀ c ∈ cs, c.isDigit = true

theorem areDigits_toDigits (n : Nat) : AreDigits (Nat.toDigits 10 n) := fun _ there =>
  Nat.isDigit_of_mem_toDigits (by decide) (by decide) there

/-- The value of a digit. -/
def digitOf (c : Char) : Nat := c.toNat - '0'.toNat

theorem digitValue?_of_isDigit {c : Char} (digit : c.isDigit = true) :
    digitValue? c = some (digitOf c) := by
  have bounds : '0' ≤ c ∧ c ≤ '9' := by
    simp only [Char.isDigit, Bool.and_eq_true, decide_eq_true_eq] at digit
    exact digit
  have small : digitOf c < 10 := by
    have low : '0'.toNat ≤ c.toNat := bounds.1
    have high : c.toNat ≤ '9'.toNat := bounds.2
    simp only [digitOf, Char.reduceToNat] at low high ⊢
    omega
  rw [digitValue?, hexValue?, if_pos bounds]
  simpa [Option.filter, digitOf] using small

theorem ofDigits_toDigits (n : Nat) : ofDigits 10 ((Nat.toDigits 10 n).map digitOf) = n := by
  rw [ofDigits, List.foldl_map]
  exact Nat.ofDigitChars_ten_toDigits

theorem head?_toDigits (pos : 0 < n) : (Nat.toDigits 10 n).head? ≠ some '0' := by
  induction n using Nat.strongRecOn with
  | ind n ih =>
    rw [Nat.toDigits_eq_if (by decide)]
    split
    next small =>
      have : ∀ m < 10, 0 < m → [Nat.digitChar m].head? ≠ some '0' := by decide
      exact this n small pos
    next large =>
      obtain ⟨c, cs, chars⟩ := List.exists_cons_of_ne_nil (Nat.toDigits_ne_nil (n := n / 10))
      have first := ih (n / 10) (by omega) (by omega)
      rw [chars] at first ⊢
      exact first

theorem toDigits_ne_zero (pos : 0 < n) : Nat.toDigits 10 n ++ rest ≠ '0' :: cs := by
  intro same
  obtain ⟨d, ds, chars⟩ := List.exists_cons_of_ne_nil (Nat.toDigits_ne_nil (n := n) (b := 10))
  have first := head?_toDigits pos
  rw [chars] at same first
  exact first (congrArg List.head? same)

theorem moreDigits_append (digits : AreDigits cs) (rest : List Char) :
    moreDigits digitValue? (cs ++ '\n' :: rest) = (cs.map digitOf, '\n' :: rest) := by
  induction cs with
  | nil =>
    have none : digitValue? '\n' = none := by decide
    cases rest <;> simp [moreDigits, none]
  | cons c cs ih =>
    have own := digitValue?_of_isDigit (digits c List.mem_cons_self)
    have later := ih fun d there => digits d (List.mem_cons_of_mem c there)
    rw [List.cons_append, moreDigits.eq_def]
    simp only [own, later, List.map_cons]

theorem digits?_append (digits : AreDigits cs) (ne : cs ≠ []) (rest : List Char) :
    digits? digitValue? (cs ++ '\n' :: rest) = some (cs.map digitOf, '\n' :: rest) := by
  obtain ⟨c, cs, rfl⟩ := List.exists_cons_of_ne_nil ne
  have own := digitValue?_of_isDigit (digits c List.mem_cons_self)
  have later := moreDigits_append (fun d there => digits d (List.mem_cons_of_mem c there)) rest
  simp only [List.cons_append, digits?, own, later, Option.map_some, List.map_cons]

theorem wholeDigits?_toDigits (n : Nat) (rest : List Char) :
    wholeDigits? (Nat.toDigits 10 n ++ '\n' :: rest) =
      some ((Nat.toDigits 10 n).map digitOf, '\n' :: rest) := by
  rcases Nat.eq_zero_or_pos n with rfl | pos
  · rfl
  · rw [← digits?_append (areDigits_toDigits n) Nat.toDigits_ne_nil, wholeDigits?]
    exact fun cs same => toDigits_ne_zero pos same

/-! ## Integers -/

/-- After some digits there is no mark between numbers. -/
theorem expect?_of_fixedDigits? {mark : Char} (digits : AreDigits cs) (other : mark ≠ '\n')
    (plain : mark.isDigit = false) {count : Nat} {found : Nat × List Char}
    (read : fixedDigits? count (cs ++ '\n' :: rest) = some found) :
    expect? mark found.2 = none := by
  induction count generalizing cs found with
  | zero =>
    cases read
    cases cs with
    | nil => exact if_neg (Ne.symm other)
    | cons c cs =>
      refine if_neg fun same => ?_
      rw [← same, digits c List.mem_cons_self] at plain
      cases plain
  | succ count ih =>
    cases cs with
    | nil => cases read
    | cons c cs =>
      rw [List.cons_append, fixedDigits?, digitValue?_of_isDigit (digits c List.mem_cons_self),
        Option.bind_some, Option.map_eq_some_iff] at read
      obtain ⟨⟨n, later⟩, read, rfl⟩ := read
      have stop := ih (fun d there => digits d (List.mem_cons_of_mem c there)) read
      exact stop

theorem date?_none (digits : AreDigits cs) (rest : List Char) :
    date? (cs ++ '\n' :: rest) = none := by
  rw [date?]
  cases read : fixedDigits? 4 (cs ++ '\n' :: rest) with
  | none => rfl
  | some found =>
    have stop := expect?_of_fixedDigits? digits (by decide) (by decide : '-'.isDigit = false) read
    simp only [bind, Option.bind, stop]

theorem time?_none (digits : AreDigits cs) (rest : List Char) :
    time? (cs ++ '\n' :: rest) = none := by
  rw [time?, twoDigits?]
  cases read : fixedDigits? 2 (cs ++ '\n' :: rest) with
  | none => rfl
  | some found =>
    have stop := expect?_of_fixedDigits? digits (by decide) (by decide : ':'.isDigit = false) read
    simp only [Option.filter_some, bind, Option.bind]
    split
    next => rfl
    next taken =>
      obtain ⟨-, ⟨⟩⟩ := Option.ite_none_right_eq_some.1 taken
      simp only [stop]

/-- Digits at the end of a line are no date and no time. -/
theorem moment?_none (digits : AreDigits cs) (rest : List Char) :
    moment? (cs ++ '\n' :: rest) = none := by
  rw [moment?, date?_none digits, time?_none digits]
  rfl

theorem moment?_negative (cs : List Char) : moment? ('-' :: cs) = none := rfl

theorem takeSign?_of_isDigit (digits : AreDigits cs) (ne : cs ≠ []) (rest : List Char) :
    takeSign? (cs ++ rest) = (none, cs ++ rest) := by
  obtain ⟨c, cs, rfl⟩ := List.exists_cons_of_ne_nil ne
  have digit := digits c List.mem_cons_self
  rw [List.cons_append, takeSign?]
  · rintro _ ⟨⟩
    cases digit
  · rintro _ ⟨⟩
    cases digit

/-- Digits with a sign or none, up to the end of a line, are an integer. -/
theorem number?_toDigits {sign : Option Bool} (few : (Nat.toDigits 10 n).length ≤ digitLimit)
    (signs : takeSign? cs = (sign, Nat.toDigits 10 n ++ '\n' :: rest))
    (base : baseInteger? cs = none) :
    number? cs = some (.ok (.integer (signed (sign.getD false) n)), '\n' :: rest) := by
  have length : ¬ digitLimit < ((Nat.toDigits 10 n).map digitOf).length := by
    rwa [List.length_map, Nat.not_lt]
  have places : decimals ('\n' :: rest) = (none, '\n' :: rest) := rfl
  have power : exponent ('\n' :: rest) = (none, '\n' :: rest) := rfl
  simp only [number?, base, decimalNumber?, signs, wholeDigits?_toDigits, Option.map_some, places,
    power, Option.isNone_none, Bool.and_self, if_true, if_neg length, ofDigits_toDigits]

/-- Digits in base ten are not in another one. -/
theorem baseInteger?_toDigits (n : Nat) (rest : List Char) :
    baseInteger? (Nat.toDigits 10 n ++ '\n' :: rest) = none := by
  rcases Nat.eq_zero_or_pos n with rfl | pos
  · rfl
  · rw [baseInteger?]
    rintro letter cs same
    exact toDigits_ne_zero pos same

theorem value_of_number {c : Char} {v : Value} (plain : c ∉ ['"', '\'', 't', 'f', '[', '{'])
    (time : moment? (c :: cs) = none) (number : number? (c :: cs) = some (.ok v, rest)) :
    value (budget + 1) (c :: cs) = .ok (v, rest) := by
  simp only [List.mem_cons, List.not_mem_nil, or_false, not_or] at plain
  rw [value]
  · simp [time, number, Except.map]
  all_goals simp_all

theorem toList_toString (n : Int) : (toString n).toList =
    if n < 0 then '-' :: Nat.toDigits 10 n.natAbs else Nat.toDigits 10 n.natAbs := by
  cases n with
  | ofNat n => exact Nat.toList_repr
  | negSucc n =>
    have written : toString (Int.negSucc n) = "-" ++ Nat.repr (n + 1) := rfl
    rw [written, String.toList_append, Nat.toList_repr, if_pos (Int.negSucc_lt_zero n)]
    rfl

/-- **An integer at the end of a line is read back.** -/
theorem value_toString (n : Int) (few : (Nat.toDigits 10 n.natAbs).length ≤ digitLimit)
    (rest : List Char) :
    value (budget + 1) ((toString n).toList ++ '\n' :: rest) = .ok (.integer n, '\n' :: rest) := by
  have digits := areDigits_toDigits n.natAbs
  rw [toList_toString]
  split
  next negative =>
    have signs : takeSign? ('-' :: (Nat.toDigits 10 n.natAbs ++ '\n' :: rest)) =
        (some true, Nat.toDigits 10 n.natAbs ++ '\n' :: rest) := rfl
    have number := number?_toDigits few signs rfl
    have same : signed true n.natAbs = n := by
      rw [signed, if_pos rfl]
      simp only [Int.ofNat_eq_natCast]
      omega
    rw [Option.getD_some, same] at number
    exact value_of_number (by decide) (moment?_negative _) number
  next natural =>
    have signs := takeSign?_of_isDigit digits Nat.toDigits_ne_nil ('\n' :: rest)
    have number := number?_toDigits few signs (baseInteger?_toDigits n.natAbs rest)
    have same : signed false n.natAbs = n := by
      rw [signed, if_neg Bool.false_ne_true]
      simp only [Int.ofNat_eq_natCast]
      omega
    have moment := moment?_none digits rest
    rw [Option.getD_none, same] at number
    obtain ⟨c, cs, chars⟩ := List.exists_cons_of_ne_nil
      (Nat.toDigits_ne_nil (n := n.natAbs) (b := 10))
    rw [chars] at digits number moment ⊢
    refine value_of_number ?_ moment number
    rintro there
    have digit := digits c List.mem_cons_self
    simp only [List.mem_cons, List.not_mem_nil, or_false] at there
    rcases there with rfl | rfl | rfl | rfl | rfl | rfl <;> cases digit

theorem value_flag (b : Bool) (rest : List Char) :
    value (budget + 1) ((toString b).toList ++ '\n' :: rest) = .ok (.boolean b, '\n' :: rest) := by
  cases b <;> rfl

end FileTags.Toml
