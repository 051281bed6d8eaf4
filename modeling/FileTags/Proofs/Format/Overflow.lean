/-
  Values that are out of range for their specifications.

  Only two presentations have a range: a character must have a code point, and a double has a
  largest value.  All other integers can be written in all other presentations.

  * `roundToDouble?_eq_none_iff`: an integer is beyond all doubles from half a step above the
    largest one on;
  * `OutOfRange` says that an integer is out of range for a specification;
  * `formatField_overflow_iff`: a text overflows if and only if it is a numeral of such an
    integer.
-/
import FileTags.Format.Value
import Mathlib.Tactic.Ring

namespace FileTags

/-! ## Beyond all doubles -/

namespace Number

variable {n : Nat}

/-- Rounding to an even number starts half way below it. -/
theorem roundDiv_eq_succ_iff {half k : Nat} (pos : 0 < half) (odd : k % 2 = 1)
    (below : n < 2 * half * (k + 1)) :
    roundDiv n (2 * half) = k + 1 ↔ (2 * k + 1) * half ≤ n := by
  have split := Nat.div_add_mod n (2 * half)
  have small := Nat.mod_lt n (Nat.mul_pos Nat.two_pos pos)
  have le : n / (2 * half) ≤ k := Nat.lt_succ_iff.1 ((Nat.div_lt_iff_lt_mul (by omega)).2 (by
    rwa [Nat.mul_comm]))
  rw [roundDiv]
  generalize n / (2 * half) = q at *
  generalize n % (2 * half) = r at *
  have expand : (2 * k + 1) * half = 2 * half * k + half := by ring
  rw [expand]
  rcases Nat.lt_or_eq_of_le le with lower | rfl
  · -- Below the last step, neither side can hold.
    have : 2 * half * (q + 1) ≤ 2 * half * k := Nat.mul_le_mul_left _ lower
    rw [Nat.mul_succ] at this
    constructor
    · intro rounded
      split at rounded <;> omega
    · intro reached
      omega
  · constructor
    · intro rounded
      split at rounded <;> omega
    · intro reached
      rw [if_pos (by omega)]

namespace Double

/-- An integer times the power of two that gives it one bit more than a significand has. -/
theorem scale_full (pos : 0 < n) {p : Int} (power : p = 53 - n.log2) :
    Nat.pow 2 53 ≤ (scale n 1 p).1 / (scale n 1 p).2 := by
  have low := Nat.log2_self_le (Nat.ne_of_gt pos)
  rw [scale]
  rcases Nat.lt_or_ge 53 n.log2 with large | small
  · obtain ⟨k, bits⟩ : ∃ k, n.log2 = 53 + k := ⟨n.log2 - 53, by omega⟩
    rw [if_pos (by omega), show p.natAbs = k by omega]
    simp only [Nat.one_mul]
    rw [bits, Nat.pow_add] at low
    exact (Nat.le_div_iff_mul_le (Nat.two_pow_pos k)).2 low
  · obtain ⟨k, bits⟩ : ∃ k, 53 = n.log2 + k := ⟨53 - n.log2, by omega⟩
    rw [if_neg (by omega), show p.natAbs = k by omega]
    simp only [Nat.div_one]
    calc Nat.pow 2 53 = 2 ^ n.log2 * 2 ^ k := by rw [bits]; exact Nat.pow_add 2 n.log2 k
      _ ≤ n * Nat.pow 2 k := Nat.mul_le_mul_right _ low

theorem exponentOf_one (pos : 0 < n) : exponentOf n 1 = (n.log2 : Int) - 52 := by
  have one : Nat.log2 1 = 0 := by decide
  have full := scale_full pos (p := -((n.log2 : Int) - (0 : Nat) - (53 : Nat))) (by omega)
  simp only [exponentOf, one, precision, leastExponent]
  rw [if_neg (Nat.not_lt.2 full)]
  omega

end Double

/-- An integer with a bit more than 53 is rounded to the next power of two from half a step below
    it on. -/
theorem roundDiv_top {k : Nat} (bits : n.log2 = k + 53) :
    roundDiv n (Nat.pow 2 (k + 1)) = Nat.pow 2 53 ↔ (2 ^ 54 - 1) * 2 ^ k ≤ n := by
  have step : Nat.pow 2 (k + 1) = 2 * 2 ^ k := Nat.pow_succ'
  have below : n < 2 * 2 ^ k * (2 ^ 53 - 1 + 1) := by
    have high := Nat.lt_log2_self (n := n)
    rw [bits] at high
    refine high.trans_eq ?_
    rw [← step, Nat.add_right_comm]
    exact Nat.pow_add 2 (k + 1) 53
  rw [step]
  exact roundDiv_eq_succ_iff (Nat.two_pow_pos k) (by decide) below

/-- An integer is beyond all doubles if it has too many bits before or after it is rounded. -/
theorem Double.ofRatio?_eq_none_iff (pos : 0 < n) {k : Nat} (exponent : k = 970) :
    ofRatio? n 1 = none ↔
      k + 53 < n.log2 ∨ n.log2 = k + 53 ∧ roundDiv n (Nat.pow 2 (k + 1)) = Nat.pow 2 53 := by
  have split : ofRatio? n 1 = none ↔ 971 <
      if roundDiv (scale n 1 (-((n.log2 : Int) - 52))).1 (scale n 1 (-((n.log2 : Int) - 52))).2 =
        Nat.pow 2 53 then (n.log2 : Int) - 52 + 1 else (n.log2 : Int) - 52 := by
    simp only [ofRatio?, exponentOf_one pos, precision, greatestExponent, ite_eq_right_iff,
      reduceCtorEq, imp_false, Int.not_le, apply_ite Double.exponent]
  rw [split]
  rcases Nat.lt_trichotomy n.log2 (k + 53) with less | same | more
  · split_ifs <;> omega
  · have scaled : scale n 1 (-((n.log2 : Int) - 52)) = (n, Nat.pow 2 (k + 1)) := by
      have power : (-((n.log2 : Int) - 52)).natAbs = k + 1 := by omega
      rw [scale, if_pos (by omega), power, Nat.one_mul]
    rw [scaled]
    split_ifs with top
    · exact iff_of_true (by omega) (.inr ⟨same, top⟩)
    · refine iff_of_false (by omega) ?_
      rintro (more | ⟨-, rounded⟩)
      · omega
      · exact top rounded
  · exact iff_of_true (by split_ifs <;> omega) (.inl more)

/-- The least integer that is beyond all doubles, half a step above the largest one. -/
def doubleBound : Nat := (2 ^ 54 - 1) * 2 ^ 970

/-- **An integer is beyond all doubles** if and only if it reaches the bound. -/
theorem roundToDouble?_eq_none_iff : roundToDouble? n = none ↔ doubleBound ≤ n := by
  -- The exponent is a variable, since powers with so large a literal would be multiplied out.
  obtain ⟨k, exponent⟩ : ∃ k, k = 970 := ⟨_, rfl⟩
  have bound : doubleBound = (2 ^ 54 - 1) * 2 ^ k := by rw [doubleBound, exponent]
  rcases Nat.eq_zero_or_pos n with rfl | pos
  · have : 0 < doubleBound := bound ▸ Nat.mul_pos (by decide) (Nat.two_pow_pos k)
    simp only [roundToDouble?, if_true]
    exact ⟨nofun, fun le => absurd le (Nat.not_le.2 this)⟩
  · rw [roundToDouble?, if_neg (Nat.ne_of_gt pos), Option.map_eq_none_iff,
      Double.ofRatio?_eq_none_iff pos exponent, bound]
    rcases Nat.lt_trichotomy n.log2 (k + 53) with less | same | more
    · have small : n < (2 ^ 54 - 1) * 2 ^ k :=
        calc n < 2 ^ (n.log2 + 1) := Nat.lt_log2_self
          _ ≤ 2 ^ (53 + k) := Nat.pow_le_pow_right Nat.two_pos (by omega)
          _ = 2 ^ 53 * 2 ^ k := Nat.pow_add 2 53 k
          _ ≤ _ := Nat.mul_le_mul_right _ (by decide)
      exact iff_of_false (by omega) (Nat.not_le.2 small)
    · rw [← roundDiv_top same]
      simp [same]
    · have large : (2 ^ 54 - 1) * 2 ^ k ≤ n :=
        calc (2 ^ 54 - 1) * 2 ^ k ≤ 2 ^ 54 * 2 ^ k := Nat.mul_le_mul_right _ (by decide)
          _ = 2 ^ (54 + k) := (Nat.pow_add 2 54 k).symm
          _ ≤ 2 ^ n.log2 := Nat.pow_le_pow_right Nat.two_pos (by omega)
          _ ≤ n := Nat.log2_self_le (Nat.ne_of_gt pos)
      exact iff_of_true (.inl more) large

end Number

/-! ## Out of range for a specification -/

namespace Format

open Text Number

variable {s : Spec} {n : Int} {cause : Overflow} {spec text : List Char}

/-- A specification asks for the character with a code point, and for nothing that a character
    cannot have. -/
structure Spec.AsksCharacter (s : Spec) : Prop where
  type : s.type = some 'c'
  precision : s.precision = none
  plainZero : s.plainZero = false
  sign : s.sign = none
  alternate : s.alternate = false

/-- An integer is out of range for a specification. -/
inductive OutOfRange (s : Spec) (n : Int) : Overflow → Prop where
  | word (asked : s.AsksCharacter) (range : n < -0x8000000000000000 ∨ 0x8000000000000000 ≤ n) :
      OutOfRange s n .word
  | codePoint (asked : s.AsksCharacter)
      (short : -0x8000000000000000 ≤ n ∧ n < 0x8000000000000000) (range : n < 0 ∨ 0x110000 ≤ n) :
      OutOfRange s n .codePoint
  | double {type : Char} (asked : s.type = some type) (double : isDoubleType type)
      (range : doubleBound ≤ n.natAbs) : OutOfRange s n .double

theorem characterParts_overflow_iff (type : s.type = some 'c') :
    integerParts s 'c' n = .error (.overflow cause) ↔ OutOfRange s n cause := by
  simp only [integerParts, characterParts]
  constructor
  · intro failed
    split_ifs at failed with precision plainZero sign alternate word code
    all_goals cases failed
    all_goals have asked : s.AsksCharacter :=
      ⟨type, by simpa using precision, by simpa using plainZero, by simpa using sign,
        by simpa using alternate⟩
    · exact .word asked word
    · exact .codePoint asked (by omega) code
  · rintro (⟨asked, range⟩ | ⟨asked, short, range⟩ | ⟨asked, double, -⟩)
    · simp [asked.precision, asked.plainZero, asked.sign, asked.alternate, range]
    · simp [asked.precision, asked.plainZero, asked.sign, asked.alternate, short, range]
    · cases type.symm.trans asked
      cases double

theorem doubleParts_overflow_iff (type : Char) :
    doubleParts s type n = .error (.overflow cause) ↔
      cause = .double ∧ doubleBound ≤ n.natAbs := by
  rw [doubleParts, ← roundToDouble?_eq_none_iff]
  cases roundToDouble? n.natAbs with
  | none => simp [eq_comm]
  | some m =>
    simp only
    split_ifs <;> simp

/-- Only characters are integers with a range. -/
theorem integerParts_ne_overflow {type : Char} (other : type ≠ 'c') :
    integerParts s type n ≠ .error (.overflow cause) := by
  unfold integerParts
  split_ifs
  · simp
  · simp
  · split
    · exact absurd rfl other
    all_goals simp

theorem isDoubleType_of_isIntegerType {type : Char} (integer : isIntegerType type) :
    isDoubleType type = false := by
  simp only [isIntegerType, decide_eq_true_eq, List.mem_cons, List.not_mem_nil, or_false] at integer
  rcases integer with rfl | rfl | rfl | rfl | rfl | rfl | rfl <;> rfl

theorem numberParts_overflow_iff :
    numberParts s (s.type.getD Kind.integer.defaultType) n = .error (.overflow cause) ↔
      OutOfRange s n cause := by
  by_cases character : s.type = some 'c'
  · rw [character]
    exact characterParts_overflow_iff character
  · have asks : OutOfRange s n cause ↔
        isDoubleType (s.type.getD 'd') ∧ cause = .double ∧ doubleBound ≤ n.natAbs := by
      constructor
      · rintro (⟨asked, -⟩ | ⟨asked, -, -⟩ | ⟨asked, double, range⟩)
        · exact absurd asked.type character
        · exact absurd asked.type character
        · exact ⟨by rwa [asked], rfl, range⟩
      · rintro ⟨double, rfl, range⟩
        cases asked : s.type with
        | none =>
          rw [asked] at double
          cases double
        | some type => exact .double asked (by rwa [asked] at double) range
    have other : s.type.getD 'd' ≠ 'c' := by
      cases asked : s.type with
      | none => decide
      | some type => exact fun same => character (asked.trans (congrArg some same))
    rw [asks, ← doubleParts_overflow_iff (s := s) (s.type.getD 'd'), numberParts,
      Kind.defaultType]
    split_ifs with integer double
    · simp [integerParts_ne_overflow other, isDoubleType_of_isIntegerType integer]
    · simp [double]
    · simp [double]

theorem formatInteger_overflow_iff :
    formatInteger spec n = .error (.overflow cause) ↔
      ∃ s, Spec.parse .integer spec = .ok s ∧ OutOfRange s n cause := by
  rw [formatInteger]
  cases Spec.parse .integer spec with
  | error e => simp
  | ok s =>
    simp only [Except.ok.injEq, exists_eq_left', ← numberParts_overflow_iff]
    cases numberParts s (s.type.getD Kind.integer.defaultType) n <;> simp [Except.map]

theorem takeType_kind {kind other : Kind} {cs : List Char} {type : Option Char}
    (taken : takeType kind spec cs = .ok type) : takeType other spec cs = .ok type := by
  match cs, taken with
  | [], taken => exact taken
  | [_], taken => exact taken

/-- A specification with a presentation means the same for texts and for integers. -/
theorem parse_text_of_integer {type : Char} (parsed : Spec.parse .integer spec = .ok s)
    (asked : s.type = some type) : Spec.parse .text spec = .ok s := by
  simp only [Spec.parse, bind, Except.bind, pure, Except.pure] at parsed ⊢
  split at parsed <;> try cases parsed
  split at parsed <;> try cases parsed
  split at parsed <;> try cases parsed
  split at parsed <;> try cases parsed
  next given taken =>
  rw [takeType_kind taken]
  cases given with
  | some _ => exact parsed
  | none =>
    -- The presentation of what is read is the one that is given.
    have none : s.type = none := by
      split at parsed
      · split at parsed <;> cases parsed
        rfl
      · cases parsed
        rfl
    cases none.symm.trans asked

/-- What asks for a character or a double does not ask for a text. -/
theorem formatText_of_outOfRange (text : List Char) (parsed : Spec.parse .integer spec = .ok s)
    (range : OutOfRange s n cause) : ∃ e, formatText spec text = .error e := by
  obtain ⟨type, asked, other⟩ : ∃ type, s.type = some type ∧ type ≠ 's' := by
    cases range with
    | word asked _ => exact ⟨'c', asked.type, by decide⟩
    | codePoint asked _ _ => exact ⟨'c', asked.type, by decide⟩
    | double asked double _ =>
      refine ⟨_, asked, ?_⟩
      rintro rfl
      cases double
  refine ⟨.unknownType type .text, ?_⟩
  simp [formatText, parse_text_of_integer parsed asked, textFault?, asked, other]

/-- **A text overflows** if and only if it is a numeral of an integer that is out of range. -/
theorem formatField_overflow_iff :
    formatField spec text = .error (.overflow cause) ↔
      ∃ s n, isNumeric text ∧ readInteger text = .ok n ∧ Spec.parse .integer spec = .ok s ∧
        OutOfRange s n cause := by
  constructor
  · intro failed
    rw [formatField] at failed
    split at failed
    · cases failed
    split at failed
    · cases failed
    split at failed
    · cases failed
    next numeric =>
    split at failed
    · cases failed
    next n read =>
      obtain ⟨s, parsed, range⟩ := formatInteger_overflow_iff.1 failed
      exact ⟨s, n, by simpa using numeric, read, parsed, range⟩
  · rintro ⟨s, n, numeric, read, parsed, range⟩
    obtain ⟨e, unfit⟩ := formatText_of_outOfRange text parsed range
    have given : spec.isEmpty = false := by
      cases spec with
      | nil => cases unfit
      | cons c cs => rfl
    simp [formatField, given, unfit, numeric, read, formatInteger_overflow_iff.2 ⟨s, parsed, range⟩]

end Format

end FileTags
