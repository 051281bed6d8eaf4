/-
  Digits written by the specification of zeros and a width.

  The specification does not fit texts, whatever the text is; so digits are written as the number
  that they denote.

  * `readInteger_digits` and `isNumeric_digits`: digits are a numeral of their number;
  * `Spec.parse_zeroPad`: how the specification is read, which only fails for a width that is too
    large;
  * `formatField_zeroPad`: digits are written without the zeros in front of them but those that
    fill the width.
-/
import FileTags.Format.Value
import FileTags.Proofs.Number.Padding

namespace FileTags

open Text Number
open Toml (AreDigits areDigits_toDigits digitOf)

/-! ## Digits as numerals -/

namespace Number

variable {cs rest : List Char} {c : Char}

theorem decimalValue?_of_isDigit (digit : c.isDigit = true) :
    decimalValue? c = some (digitOf c) := by
  obtain ⟨code, small⟩ := toNat_of_isDigit digit
  have zero : decimalZeros.find? (fun z => z ≤ c.toNat && c.toNat < z + 10) = some 0x30 := by
    rw [decimalZeros, List.find?_cons_of_pos]
    simp only [Bool.and_eq_true, decide_eq_true_eq]
    omega
  rw [decimalValue?, zero, Option.map_some, digitOf]
  rfl

theorem isBlank_of_isDigit (digit : c.isDigit = true) : isBlank c = false := by
  obtain ⟨code, small⟩ := toNat_of_isDigit digit
  have apart : ∀ range ∈ blankRanges, range.2 < 48 ∨ 57 < range.1 := by decide
  refine List.any_eq_false.2 fun range there => ?_
  rw [decide_eq_true_eq, CodeRange.Mem]
  have := apart range there
  omega

theorem ofDigits_digits : ofDigits 10 (cs.map digitOf) = denoted cs := by
  rw [ofDigits, List.foldl_map]
  rfl

theorem scanDigits_digits (digits : AreDigits cs) :
    scanDigits true cs = some (cs.map digitOf, []) := by
  induction cs with
  | nil => rfl
  | cons c cs ih =>
    obtain ⟨own, others⟩ := List.forall_mem_cons.1 digits
    rw [scanDigits, decimalValue?_of_isDigit own]
    simp only [ih others, Option.map_some, List.map_cons]

theorem readInteger_digits (digits : AreDigits cs) (ne : cs ≠ []) (few : cs.length ≤ digitLimit) :
    readInteger cs = .ok (Int.ofNat (denoted cs)) := by
  obtain ⟨c, cs, rfl⟩ := List.exists_cons_of_ne_nil ne
  obtain ⟨own, others⟩ := List.forall_mem_cons.1 digits
  have margin : isMargin c = false := by rw [isMargin, isBlank_of_isDigit own, Bool.false_and]
  have sign : takeSign (c :: cs) = (false, c :: cs) := by
    unfold takeSign
    split
    · next same =>
      cases same
      cases own
    · next same =>
      cases same
      cases own
    · rfl
  have scanned : scanDigits false (c :: cs) = some ((c :: cs).map digitOf, []) := by
    rw [scanDigits, decimalValue?_of_isDigit own]
    simp only [scanDigits_digits others, Option.map_some, List.map_cons]
  have fits : ¬ digitLimit < ((c :: cs).map digitOf).length := by
    rw [List.length_map]
    exact Nat.not_lt.2 few
  rw [readInteger, List.dropWhile_cons_of_neg (by simp [margin]), sign]
  simp only [scanned, if_neg fits, ofDigits_digits]
  rfl

theorem isNumeric_digits (digits : AreDigits cs) (ne : cs ≠ []) : isNumeric cs = true := by
  have bare : strip cs = cs := by
    obtain ⟨c, ds, chars⟩ := List.exists_cons_of_ne_nil ne
    have first : isBlank c = false := isBlank_of_isDigit (digits c (by simp [chars]))
    have start : trimStart cs = cs := by
      rw [trimStart, chars, List.dropWhile_cons_of_neg (by simp [first])]
    have last : isBlank (cs.getLast ne) = false :=
      isBlank_of_isDigit (digits _ (List.getLast_mem ne))
    rw [strip, start, trimEnd, ← List.dropLast_concat_getLast ne, dropEnd_append_of_not last]
  have unsigned : cs.dropWhile (fun c => c = '+' || c = '-') = cs := by
    obtain ⟨c, ds, rfl⟩ := List.exists_cons_of_ne_nil ne
    have own := digits c List.mem_cons_self
    refine List.dropWhile_cons_of_neg ?_
    simp only [Bool.or_eq_true, decide_eq_true_eq]
    rintro (rfl | rfl) <;> cases own
  have all : cs.all isDigit = true := by
    refine List.all_eq_true.2 fun c there => ?_
    rw [isDigit, decimalValue?_of_isDigit (digits c there)]
    rfl
  rw [isNumeric, bare, unsigned, all, List.isEmpty_eq_false_iff.2 ne]
  rfl

end Number

/-! ## Zeros and a width -/

namespace Format

variable {kind : Kind} {width : Nat} {cs rest : List Char} {c : Char}

/-- The text of the specification of zeros and a width, for integers. -/
def zeroPadText (width : Nat) : List Char := '0' :: (Nat.toDigits 10 width ++ ['d'])

/-- The specification of zeros and a width, for integers. -/
def zeroPadSpec (width : Nat) : Spec where
  fill := none
  align := none
  sign := none
  plainZero := false
  alternate := false
  zeroPad := true
  width := some width
  separator := none
  precision := none
  type := some 'd'

theorem takeCount_digits (digits : AreDigits cs) (ne : cs ≠ []) (stop : decimalValue? c = none) :
    takeCount (cs ++ c :: rest) =
      if denoted cs ≤ countLimit then .ok (some (denoted cs), c :: rest)
      else .error .tooManyDigits := by
  have values : ∀ d ∈ cs, (decimalValue? d).isSome = true := fun d there => by
    rw [decimalValue?_of_isDigit (digits d there)]
    rfl
  have taken : (cs ++ c :: rest).takeWhile (decimalValue? · |>.isSome) = cs := by
    rw [List.takeWhile_append_of_pos values, List.takeWhile_cons_of_neg (by simp [stop]),
      List.append_nil]
  have number : ofDigits 10 (cs.filterMap decimalValue?) = denoted cs := by
    rw [List.filterMap_congr fun d there => decimalValue?_of_isDigit (digits d there),
      ← ofDigits_digits, ← List.filterMap_eq_map]
    rfl
  obtain ⟨d, ds, rfl⟩ := List.exists_cons_of_ne_nil ne
  rw [takeCount, taken]
  simp only [number, List.drop_left]

theorem ofChar?_of_isDigit (digit : c.isDigit = true) : Align.ofChar? c = none := by
  unfold Align.ofChar?
  split <;> first | rfl | cases digit

/-- **How the specification is read**, for texts and for integers. -/
theorem Spec.parse_zeroPad :
    Spec.parse kind (zeroPadText width) =
      if width ≤ countLimit then .ok (zeroPadSpec width) else .error .tooManyDigits := by
  have digits := areDigits_toDigits width
  have stop : decimalValue? 'd' = none := by decide
  have count : takeCount (Nat.toDigits 10 width ++ ['d']) =
      if width ≤ countLimit then .ok (some width, ['d']) else .error .tooManyDigits := by
    rw [takeCount_digits digits Nat.toDigits_ne_nil stop, denoted_toDigits]
  -- What follows the zero is a digit, so the zero is no fill.
  have align : takeAlign (zeroPadText width) = ((none, none), zeroPadText width) := by
    obtain ⟨d, ds, chars⟩ := List.exists_cons_of_ne_nil (Nat.toDigits_ne_nil (n := width) (b := 10))
    have own : d.isDigit = true := digits d (by simp [chars])
    rw [zeroPadText, chars, List.cons_append, takeAlign, ofChar?_of_isDigit own]
    rfl
  simp only [Spec.parse, align]
  by_cases few : width ≤ countLimit
  · simp [zeroPadText, takeSignRule, SignRule.ofChar?, takeChar, count, few, takeSeparator,
      takePrecision, takeType, zeroPadSpec, bind, Except.bind, pure, Except.pure]
  · simp [zeroPadText, takeSignRule, SignRule.ofChar?, takeChar, count, few, bind, Except.bind]

theorem Spec.exists_parse_zeroPad_iff :
    (∃ s, Spec.parse kind (zeroPadText width) = .ok s) ↔ width ≤ countLimit := by
  rw [Spec.parse_zeroPad]
  by_cases few : width ≤ countLimit <;> simp [few]

/-- The specification does not fit texts. -/
theorem formatText_zeroPad (few : width ≤ countLimit) :
    formatText (zeroPadText width) cs = .error (.unknownType 'd' .text) := by
  rw [formatText, Spec.parse_zeroPad, if_pos few]
  rfl

/-- Zeros fill the width in front of a number without a sign. -/
theorem layoutNumber_zeroPad (ne : cs ≠ []) :
    layoutNumber (zeroPadSpec width) ⟨false, [], cs, []⟩ = padLeft '0' width cs := by
  have fill : (zeroPadSpec width).fillChar = '0' := rfl
  have align : (zeroPadSpec width).alignOr .right = .afterSign := rfl
  have least : (zeroPadSpec width).leastWidth = width := rfl
  have groups : grouping? (zeroPadSpec width) = none := rfl
  have sign : signChars (zeroPadSpec width).sign false = [] := rfl
  -- The zeros are put in as digits, and nothing is missing after that.
  have filled : width - (padLeft '0' width cs).length = 0 := by
    rw [length_padLeft]
    exact Nat.sub_eq_zero_of_le (Nat.le_max_left ..)
  simp [layoutNumber, fill, align, least, groups, sign, ne, grouped, pad, filled]

theorem formatInteger_zeroPad (few : width ≤ countLimit) (n : Nat) :
    formatInteger (zeroPadText width) (Int.ofNat n) =
      .ok (padLeft '0' width (Nat.toDigits 10 n)) := by
  have parts : numberParts (zeroPadSpec width) 'd' (Int.ofNat n) =
      .ok ⟨false, [], Nat.toDigits 10 n, []⟩ := by
    simp [numberParts, isIntegerType, integerParts, zeroPadSpec, decimalParts, decimal]
  have type : (zeroPadSpec width).type.getD Kind.integer.defaultType = 'd' := rfl
  rw [formatInteger, Spec.parse_zeroPad, if_pos few]
  simp only [type, parts, Except.map, layoutNumber_zeroPad Nat.toDigits_ne_nil]

/-- **Digits are written as the number that they denote**, with zeros that fill the width. -/
theorem formatField_zeroPad (few : width ≤ countLimit) (digits : AreDigits cs) (ne : cs ≠ [])
    (short : cs.length ≤ digitLimit) :
    formatField (zeroPadText width) cs = .ok (padLeft '0' width (withoutZeros cs)) := by
  have given : (zeroPadText width).isEmpty = false := rfl
  have numeric : (!isNumeric cs) = false := by rw [isNumeric_digits digits ne, Bool.not_true]
  rw [formatField, given, formatText_zeroPad few, numeric, readInteger_digits digits ne short,
    ← toDigits_denoted digits, ← formatInteger_zeroPad few]
  rfl

end Format

end FileTags
