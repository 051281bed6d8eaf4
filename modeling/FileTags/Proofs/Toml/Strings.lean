/-
  Strings and keys are read back as they are written.

  * `basicString_writeChar`: a written character is read as that character, whatever follows it;
  * `lineString_writeString` and `quotedString_writeString`: so is a written string;
  * `keyPart_writeKey` and `key_writeKey`: so is a key, whether it is written in quotes or not;
  * `return_not_mem_writeString`: no carriage return is written.
-/
import FileTags.Toml.Writer
import Mathlib.Tactic.SplitIfs

namespace FileTags.Toml

open Text Number

variable {c : Char} {cs rest : List Char} {s name : String}

/-! ## Characters -/

theorem charOfHex?_hexWidth : ∀ n < 0x80,
    charOfHex? (hexWidth 4 n) = some (Char.ofNat n) ∧ (hexWidth 4 n).length = 4 := by
  decide +kernel

theorem isControl_lt (control : isControl c = true) : c.toNat < 0x80 := by
  simp only [isControl, Bool.or_eq_true, Bool.and_eq_true, decide_eq_true_eq] at control
  omega

theorem basicString_escape {letter : Char} (stands : escapedChar? letter = some c) :
    basicString ('\\' :: letter :: cs) = prepend c (basicString cs) := by
  have small : letter ≠ 'u' := fun e => by simp [e, escapedChar?] at stands
  have large : letter ≠ 'U' := fun e => by simp [e, escapedChar?] at stands
  rw [basicString, stands, prepend?]
  · rintro _ _ _ _ _ rfl -
    exact small rfl
  · rintro _ _ _ _ _ _ _ _ _ rfl -
    exact large rfl

theorem basicString_control (control : isControl c = true) :
    basicString ('\\' :: 'u' :: hexWidth 4 c.toNat ++ cs) = prepend c (basicString cs) := by
  obtain ⟨stands, length⟩ := charOfHex?_hexWidth c.toNat (isControl_lt control)
  obtain ⟨h₁, h₂, h₃, h₄, digits⟩ : ∃ h₁ h₂ h₃ h₄, hexWidth 4 c.toNat = [h₁, h₂, h₃, h₄] := by
    match hexWidth 4 c.toNat, length with
    | [h₁, h₂, h₃, h₄], _ => exact ⟨h₁, h₂, h₃, h₄, rfl⟩
  rw [digits] at stands ⊢
  simp only [List.cons_append, List.nil_append, basicString, stands, prepend?, Char.ofNat_toNat]

/-- **A written character is read as that character.** -/
theorem basicString_writeChar (c : Char) (cs : List Char) :
    basicString (writeChar c ++ cs) = prepend c (basicString cs) := by
  unfold writeChar
  split_ifs with quote backslash backspace feed form ret control
  iterate 6
    · subst c
      exact basicString_escape rfl
  · exact basicString_control control
  · rw [List.singleton_append, basicString, if_neg (not_or.2 ⟨backslash, control⟩)]
    all_goals simp [quote, backslash]

/-- The text of a string is read up to the quote that ends it. -/
theorem basicString_flatMap (cs rest : List Char) :
    basicString (cs.flatMap writeChar ++ '"' :: rest) = .ok (cs, rest) := by
  induction cs with
  | nil => rfl
  | cons c cs ih => rw [List.flatMap_cons, List.append_assoc, basicString_writeChar, ih, prepend]

/-! ## Strings -/

theorem writeString_append (s : String) (rest : List Char) :
    writeString s ++ rest = '"' :: (s.toList.flatMap writeChar ++ '"' :: rest) := by
  simp [writeString]

/-- **A written string is read back.** -/
theorem lineString_writeString (s : String) (rest : List Char) :
    lineString (writeString s ++ rest) = .ok (s.toList, rest) := by
  rw [writeString_append, lineString]
  exact basicString_flatMap s.toList rest

theorem head?_writeChar (c : Char) (cs : List Char) : (writeChar c ++ cs).head? ≠ some '"' := by
  unfold writeChar
  split_ifs with quote
  all_goals simp [quote]

theorem quotedString_of_quote (single : ∀ ds, cs ≠ '"' :: '"' :: ds) :
    quotedString ('"' :: cs) = lineString ('"' :: cs) := by
  rw [quotedString]
  · rintro ds ⟨⟩
    exact single ds rfl
  · rintro ds ⟨⟩

/-- A written string is no string over lines. -/
theorem quotedString_writeString (s : String) (stop : rest.head? ≠ some '"') :
    quotedString (writeString s ++ rest) = .ok (s.toList, rest) := by
  rw [← lineString_writeString s rest, writeString_append]
  refine quotedString_of_quote fun ds same => ?_
  cases chars : s.toList with
  | nil =>
    rw [chars] at same
    obtain rfl : rest = '"' :: ds := by simpa using same
    exact stop rfl
  | cons c cs =>
    rw [chars, List.flatMap_cons, List.append_assoc] at same
    exact head?_writeChar c _ (congrArg List.head? same)

/-! ## Keys -/

theorem takeWhile_bare (bare : cs.all isBare = true)
    (stop : ∀ c ∈ rest.head?, isBare c = false) : (cs ++ rest).takeWhile isBare = cs := by
  rw [List.takeWhile_append_of_pos (by simpa using bare)]
  cases rest with
  | nil => simp
  | cons c rest => simp [stop c rfl]

/-- **A written part of a key is read back** if what follows is not part of it. -/
theorem keyPart_writeKey (name : String) (stop : ∀ c ∈ rest.head?, isBare c = false) :
    keyPart (writeKey name ++ rest) = .ok (name, rest) := by
  rw [writeKey]
  split
  next bare =>
    have taken := takeWhile_bare bare.2 stop
    rw [keyPart, taken]
    split
    next none => exact absurd none bare.1
    next => rw [List.drop_left, String.ofList_toList]
  next =>
    have quoted : (writeString name ++ rest).takeWhile isBare = [] := by
      rw [writeString_append]
      rfl
    rw [keyPart, quoted]
    simp only [lineString_writeString, Except.map, String.ofList_toList]

/-- A key of one part is read back with the white space after it. -/
theorem key_writeKey (name : String) {budget : Nat} (stop : ∀ c ∈ rest.head?, isBare c = false)
    (last : (skipSpaces rest).head? ≠ some '.') :
    key (budget + 1) (writeKey name ++ rest) = .ok ([name], skipSpaces rest) := by
  rw [key, keyPart_writeKey name stop]
  simp only
  split
  next more => simp [more] at last
  next => rfl

/-- What a written key starts with. -/
theorem head_writeKey (name : String) :
    ∃ c cs, writeKey name = c :: cs ∧ (c = '"' ∨ isBare c = true) := by
  rw [writeKey]
  split
  next bare =>
    obtain ⟨c, cs, chars⟩ := List.exists_cons_of_ne_nil bare.1
    have all := bare.2
    rw [chars, List.all_cons, Bool.and_eq_true] at all
    exact ⟨c, cs, chars, .inr all.1⟩
  next => exact ⟨'"', _, rfl, .inl rfl⟩

/-! ## Line ends -/

theorem return_not_mem_hexWidth : ∀ n < 0x80, '\r' ∉ hexWidth 4 n := by decide +kernel

theorem return_not_mem_writeChar (c : Char) : '\r' ∉ writeChar c := by
  unfold writeChar
  split_ifs with quote backslash backspace feed form ret control
  iterate 6
    · decide
  · have := return_not_mem_hexWidth c.toNat (isControl_lt control)
    simpa using this
  · simpa using Ne.symm ret

theorem return_not_mem_writeString (s : String) : '\r' ∉ writeString s := by
  simp [writeString, return_not_mem_writeChar]

theorem return_not_mem_writeKey (name : String) : '\r' ∉ writeKey name := by
  rw [writeKey]
  split
  next bare =>
    exact fun there => absurd (List.all_eq_true.1 bare.2 _ there) (by decide)
  next => exact return_not_mem_writeString name

end FileTags.Toml
