/-
  A reader of JSON strings, and what it makes of the strings that are written.

  A string is read in two steps: its characters and escapes as numbers, and the numbers as
  characters.  A character stands for its code point; an escape `\u` with four hexadecimal digits
  stands for a UTF-16 unit, and two units that are a surrogate pair for one character above
  U+FFFF.  Control characters, unknown escapes and surrogates that are not in a pair are refused.

  * `unitOfHex?_hexWidth`: four written digits are read as their number;
  * `readUnits_escapeChar` and `joinUnits_units`: both steps, for one written character;
  * `readString_renderString`: a written string is read back, whatever follows it;
  * `isPrintableAscii_renderString`: it is written in printable ASCII.
-/
import FileTags.Text.Json
import FileTags.Toml.Quotes
import Mathlib.Tactic.SplitIfs

namespace FileTags.Text.Json

open Number

variable {c : Char} {cs rest : List Char} {s : String} {n : Nat}

/-! ## The reader -/

/-- The number that hexadecimal digits stand for. -/
def unitOfHex? (ds : List Char) : Option Nat := (ds.mapM Toml.hexValue?).map (ofDigits 16)

/-- The character that an escape of one letter stands for. -/
def escapedChar? : Char → Option Char
  | '"' => some '"'
  | '\\' => some '\\'
  | '/' => some '/'
  | 'b' => some '\x08'
  | 'f' => some '\x0c'
  | 'n' => some '\n'
  | 'r' => some '\r'
  | 't' => some '\t'
  | _ => none

/-- Numbers that begin with a number if there is one. -/
def prepend? (n : Option Nat) (part : Option (List Nat × List Char)) :
    Option (List Nat × List Char) :=
  n.bind fun n => part.map fun (ns, rest) => (n :: ns, rest)

/-- The numbers up to the quote that ends a string, and what follows it. -/
def readUnits : List Char → Option (List Nat × List Char)
  | [] => none
  | '"' :: rest => some ([], rest)
  | '\\' :: 'u' :: a :: b :: c :: d :: rest => prepend? (unitOfHex? [a, b, c, d]) (readUnits rest)
  | '\\' :: c :: rest => prepend? ((escapedChar? c).map Char.toNat) (readUnits rest)
  | c :: rest =>
    if c = '\\' ∨ c.toNat < 0x20 then none else prepend? (some c.toNat) (readUnits rest)

/-- The characters of code points, with those above U+FFFF as they are or as two surrogates. -/
def joinUnits : List Nat → Option (List Char)
  | [] => some []
  | n :: ns =>
    if n.isValidChar then (joinUnits ns).map (Char.ofNat n :: ·)
    else match ns with
      | [] => none
      | low :: ns =>
        if 0xd800 ≤ n ∧ n < 0xdc00 ∧ 0xdc00 ≤ low ∧ low < 0xe000 then
          (joinUnits ns).map (Char.ofNat (0x10000 + (n - 0xd800) * 0x400 + (low - 0xdc00)) :: ·)
        else none

/-- A string after its first quote, and what follows it. -/
def readString (cs : List Char) : Option (String × List Char) :=
  (readUnits cs).bind fun (ns, rest) => (joinUnits ns).map fun cs => (String.ofList cs, rest)

/-! ## Hexadecimal digits -/

theorem hexValue?_digitChar : ∀ d < 16, Toml.hexValue? (Nat.digitChar d) = some d := by decide

theorem unitOfHex?_map_digitChar {ds : List Nat} (digits : ∀ d ∈ ds, d < 16) :
    unitOfHex? (ds.map Nat.digitChar) = some (ofDigits 16 ds) := by
  have values : (ds.map Nat.digitChar).mapM Toml.hexValue? = some ds := by
    induction ds with
    | nil => rfl
    | cons d ds ih =>
      rw [List.map_cons, List.mapM_cons, hexValue?_digitChar d (digits d List.mem_cons_self),
        ih fun e there => digits e (List.mem_cons_of_mem d there)]
      rfl
  rw [unitOfHex?, values, Option.map_some]

/-- A number is written with its digits. -/
theorem exists_digits (n : Nat) :
    ∃ ds : List Nat, (∀ d ∈ ds, d < 16) ∧ hex n = ds.map Nat.digitChar ∧ ofDigits 16 ds = n := by
  induction n using Nat.strongRecOn with
  | ind n ih =>
    rw [hex, Nat.toDigits_eq_if (by decide)]
    split
    next small => exact ⟨[n], by simpa using small, rfl, by simp [ofDigits]⟩
    next large =>
      obtain ⟨ds, digits, written, value⟩ := ih (n / 16) (by omega)
      refine ⟨ds ++ [n % 16], ?_, ?_, ?_⟩
      · have last : n % 16 < 16 := Nat.mod_lt _ (by decide)
        simpa [or_imp, forall_and] using ⟨digits, last⟩
      · rw [← hex, written, List.map_append, List.map_cons, List.map_nil]
      · rw [ofDigits, List.foldl_append, ← ofDigits, value, List.foldl_cons, List.foldl_nil]
        omega

theorem ofDigits_zeros (base k : Nat) (ds : List Nat) :
    ofDigits base (List.replicate k 0 ++ ds) = ofDigits base ds := by
  induction k with
  | zero => rfl
  | succ k ih => simpa [ofDigits, List.replicate_succ] using ih

/-- **Four digits are read as their number.** -/
theorem unitOfHex?_hexWidth (small : n < 0x10000) :
    ∃ h₁ h₂ h₃ h₄, hexWidth 4 n = [h₁, h₂, h₃, h₄] ∧ unitOfHex? [h₁, h₂, h₃, h₄] = some n := by
  have length : (hexWidth 4 n).length = 4 := by
    have := (Nat.length_toDigits_le_iff (b := 16) (k := 4) (by decide) (by decide)).2 small
    rw [hexWidth, length_padLeft, hex]
    omega
  obtain ⟨ds, digits, written, value⟩ := exists_digits n
  have padded : hexWidth 4 n = (List.replicate (4 - (hex n).length) 0 ++ ds).map Nat.digitChar := by
    rw [hexWidth, padLeft, List.map_append, List.map_replicate, ← written]
    rfl
  have read : unitOfHex? (hexWidth 4 n) = some n := by
    rw [padded, unitOfHex?_map_digitChar, ofDigits_zeros, value]
    intro d there
    rcases List.mem_append.1 there with zero | digit
    · rw [List.eq_of_mem_replicate zero]
      decide
    · exact digits d digit
  generalize hexWidth 4 n = cs at length read ⊢
  obtain _ | ⟨h₁, _ | ⟨h₂, _ | ⟨h₃, _ | ⟨h₄, _ | ⟨h₅, cs⟩⟩⟩⟩⟩ := cs <;> simp at length
  exact ⟨h₁, h₂, h₃, h₄, rfl, read⟩

/-! ## Characters -/

/-- The numbers that a character is read as: itself, or its surrogates. -/
def units (c : Char) : List Nat :=
  if c.toNat < 0x10000 then [c.toNat]
  else [0xd800 + (c.toNat - 0x10000) / 0x400, 0xdc00 + (c.toNat - 0x10000) % 0x400]

theorem toNat_lt (c : Char) : c.toNat < 0x110000 := by
  rcases c.valid with low | ⟨-, high⟩
  · exact Nat.lt_trans low (by decide)
  · exact high

theorem readUnits_unitEscape (small : n < 0x10000) (cs : List Char) :
    readUnits (unitEscape n ++ cs) = prepend? (some n) (readUnits cs) := by
  obtain ⟨h₁, h₂, h₃, h₄, digits, value⟩ := unitOfHex?_hexWidth small
  rw [unitEscape, digits]
  simp only [List.cons_append, List.nil_append, readUnits, value]

theorem readUnits_letter {letter : Char} (stands : escapedChar? letter = some c) (cs : List Char) :
    readUnits ('\\' :: letter :: cs) = prepend? (some c.toNat) (readUnits cs) := by
  have plain : letter ≠ 'u' := fun e => by simp [e, escapedChar?] at stands
  rw [readUnits, stands, Option.map_some]
  rintro _ _ _ _ _ rfl -
  exact plain rfl

/-- **A written character is read as its numbers**, whatever follows it. -/
theorem readUnits_escapeChar (c : Char) (cs : List Char) :
    readUnits (escapeChar c ++ cs) =
      (readUnits cs).map fun (ns, rest) => (units c ++ ns, rest) := by
  have one (ascii : c.toNat < 0x10000) :
      prepend? (some c.toNat) (readUnits cs) =
        (readUnits cs).map fun (ns, rest) => (units c ++ ns, rest) := by
    rw [units, if_pos ascii]
    rfl
  unfold escapeChar
  split_ifs with quote backslash feed ret tab form back printable small
  iterate 7
    · subst c
      exact (readUnits_letter rfl cs).trans (one (by decide))
  · obtain ⟨low, high⟩ : 0x20 ≤ c.toNat ∧ c.toNat < 0x7f := by
      simpa [isPrintableAscii] using printable
    rw [← one (by omega), List.singleton_append, readUnits, if_neg (not_or.2 ⟨backslash, by omega⟩)]
    all_goals simp [quote, backslash]
  · rw [readUnits_unitEscape small, one small]
  · have bound := toNat_lt c
    rw [List.append_assoc, readUnits_unitEscape (by omega), readUnits_unitEscape (by omega), units,
      if_neg small]
    cases readUnits cs <;> rfl

/-- **The numbers of a character are joined to that character.** -/
theorem joinUnits_units (c : Char) (ns : List Nat) :
    joinUnits (units c ++ ns) = (joinUnits ns).map (c :: ·) := by
  unfold units
  split
  next small =>
    have valid : c.toNat.isValidChar := c.valid
    rw [List.singleton_append, joinUnits.eq_def]
    simp only
    rw [if_pos valid, Char.ofNat_toNat]
  next large =>
    have bound := toNat_lt c
    have surrogate : ¬ (0xd800 + (c.toNat - 0x10000) / 0x400).isValidChar := by
      simp only [Nat.isValidChar]
      omega
    have code : 0x10000 + (0xd800 + (c.toNat - 0x10000) / 0x400 - 0xd800) * 0x400 +
        (0xdc00 + (c.toNat - 0x10000) % 0x400 - 0xdc00) = c.toNat := by omega
    rw [List.cons_append, List.singleton_append, joinUnits.eq_def]
    simp only
    rw [if_neg surrogate, if_pos (by omega), code, Char.ofNat_toNat]

/-- A surrogate without its partner stands for no character. -/
example : joinUnits [0xd83d, 0x61] = none := by decide

/-! ## Strings -/

theorem readUnits_flatMap (cs rest : List Char) :
    readUnits (cs.flatMap escapeChar ++ '"' :: rest) = some (cs.flatMap units, rest) := by
  induction cs with
  | nil => rfl
  | cons c cs ih =>
    rw [List.flatMap_cons, List.append_assoc, readUnits_escapeChar, ih]
    rfl

theorem joinUnits_flatMap (cs : List Char) : joinUnits (cs.flatMap units) = some cs := by
  induction cs with
  | nil => rfl
  | cons c cs ih => rw [List.flatMap_cons, joinUnits_units, ih, Option.map_some]

theorem renderString_append (s : String) (rest : List Char) :
    renderString s ++ rest = '"' :: (s.toList.flatMap escapeChar ++ '"' :: rest) := by
  simp [renderString]

/-- **A written string is read back**, whatever follows it. -/
theorem readString_renderString (s : String) (rest : List Char) :
    readString (s.toList.flatMap escapeChar ++ '"' :: rest) = some (s, rest) := by
  rw [readString, readUnits_flatMap, Option.bind_some]
  simp only
  rw [joinUnits_flatMap, Option.map_some, String.ofList_toList]

/-! ## ASCII -/

theorem isPrintableAscii_digitChar : ∀ d < 16, isPrintableAscii (Nat.digitChar d) = true := by
  decide

theorem isPrintableAscii_unitEscape (there : c ∈ unitEscape n) : isPrintableAscii c = true := by
  obtain ⟨ds, digits, written, -⟩ := exists_digits n
  simp only [unitEscape, hexWidth, padLeft, written, List.mem_cons, List.mem_append,
    List.mem_replicate, List.mem_map] at there
  rcases there with rfl | rfl | ⟨-, rfl⟩ | ⟨d, digit, rfl⟩
  iterate 3
    · decide
  · exact isPrintableAscii_digitChar d (digits d digit)

theorem isPrintableAscii_escapeChar {d : Char} (there : d ∈ escapeChar c) :
    isPrintableAscii d = true := by
  have ascii : ∀ letter : Char, isPrintableAscii letter = true → d ∈ ['\\', letter] →
      isPrintableAscii d = true := by
    rintro letter plain there
    obtain rfl | rfl : d = '\\' ∨ d = letter := by simpa using there
    · decide
    · exact plain
  unfold escapeChar at there
  split_ifs at there with quote backslash feed ret tab form back printable small
  iterate 7
    · exact ascii _ (by decide) there
  · rwa [List.mem_singleton.1 there]
  · exact isPrintableAscii_unitEscape there
  · exact (List.mem_append.1 there).elim isPrintableAscii_unitEscape isPrintableAscii_unitEscape

/-- **A string is written in printable ASCII.** -/
theorem isPrintableAscii_renderString (there : c ∈ renderString s) : isPrintableAscii c = true := by
  simp only [renderString, List.cons_append, List.mem_cons, List.mem_append,
    List.mem_flatMap] at there
  rcases there with rfl | ⟨d, -, there⟩ | rfl | none
  · decide
  · exact isPrintableAscii_escapeChar there
  · decide
  · cases none

end FileTags.Text.Json
