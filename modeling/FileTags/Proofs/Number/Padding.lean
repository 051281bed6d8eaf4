/-
  Decimal digits with zeros in front.

  * `denoted` is the number that some digits denote, and `withoutZeros` drops the zeros in front;
  * `toDigits_denoted`: what is left are the digits of the number;
  * `lt_iff_denoted_lt`: digits of the same length are in the order of their numbers;
  * `zeroPadded` fills up a width with zeros, and `zeroPadded_lt_iff`: numbers that fit into it
    are in order as texts.
-/
import FileTags.Proofs.Toml.Values
import Mathlib.Data.String.Basic

namespace FileTags.Number

open Text
open Toml (AreDigits areDigits_toDigits digitOf head?_toDigits)

/-! ## The number that digits denote -/

/-- The number that some digits denote. -/
def denoted (cs : List Char) : Nat := Nat.ofDigitChars 10 cs 0

variable {c d : Char} {cs ds : List Char} {n k : Nat}

theorem denoted_cons : denoted (c :: cs) = 10 ^ cs.length * digitOf c + denoted cs := by
  rw [denoted, Nat.ofDigitChars_cons, Nat.ofDigitChars_eq_ofDigitChars_zero, Nat.mul_zero,
    Nat.zero_add]
  rfl

theorem denoted_zeros : denoted (List.replicate k '0' ++ cs) = denoted cs := by
  rw [denoted, Nat.ofDigitChars_append, Nat.ofDigitChars_replicate_zero, Nat.mul_zero, denoted]

theorem denoted_padLeft {width : Nat} : denoted (padLeft '0' width cs) = denoted cs := denoted_zeros

theorem denoted_toDigits : denoted (Nat.toDigits 10 n) = n := Nat.ofDigitChars_ten_toDigits

theorem toNat_of_isDigit (digit : c.isDigit = true) :
    c.toNat = 48 + digitOf c ∧ digitOf c < 10 := by
  simp only [Char.isDigit, Bool.and_eq_true, decide_eq_true_eq] at digit
  have low : '0'.toNat ≤ c.toNat := digit.1
  have high : c.toNat ≤ '9'.toNat := digit.2
  simp only [digitOf, Char.reduceToNat] at *
  omega

theorem denoted_lt (digits : AreDigits cs) : denoted cs < 10 ^ cs.length := by
  induction cs with
  | nil => decide
  | cons c cs ih =>
    obtain ⟨own, others⟩ := List.forall_mem_cons.1 digits
    have later := ih others
    have small : digitOf c + 1 ≤ 10 := (toNat_of_isDigit own).2
    calc denoted (c :: cs) = 10 ^ cs.length * digitOf c + denoted cs := denoted_cons
      _ < 10 ^ cs.length * digitOf c + 10 ^ cs.length := Nat.add_lt_add_left later _
      _ = 10 ^ cs.length * (digitOf c + 1) := (Nat.mul_succ _ _).symm
      _ ≤ 10 ^ cs.length * 10 := Nat.mul_le_mul_left _ small
      _ = 10 ^ (c :: cs).length := (Nat.pow_succ ..).symm

/-! ## Order -/

theorem digit_lt_iff (own : c.isDigit = true) (other : d.isDigit = true) :
    c < d ↔ digitOf c < digitOf d := by
  have first := (toNat_of_isDigit own).1
  have second := (toNat_of_isDigit other).1
  have codes : c < d ↔ c.toNat < d.toNat := Iff.rfl
  rw [codes, first, second]
  exact Nat.add_lt_add_iff_left

theorem digit_inj (own : c.isDigit = true) (other : d.isDigit = true)
    (same : digitOf c = digitOf d) : c = d := by
  refine Char.toNat_inj.1 ?_
  rw [(toNat_of_isDigit own).1, (toNat_of_isDigit other).1, same]

/-- **Digits of the same length are in the order of their numbers.** -/
theorem lt_iff_denoted_lt (first : AreDigits cs) (second : AreDigits ds)
    (length : cs.length = ds.length) : cs < ds ↔ denoted cs < denoted ds := by
  induction cs generalizing ds with
  | nil =>
    obtain rfl : ds = [] := List.eq_nil_of_length_eq_zero length.symm
    simp
  | cons c cs ih =>
    obtain ⟨d, ds, rfl⟩ := List.exists_cons_of_length_eq_add_one length.symm
    obtain ⟨own, others⟩ := List.forall_mem_cons.1 first
    obtain ⟨own', others'⟩ := List.forall_mem_cons.1 second
    have length' : cs.length = ds.length := Nat.succ.inj length
    have low := denoted_lt others
    have low' := denoted_lt others'
    rw [List.cons_lt_cons_iff, ih others others' length', denoted_cons, denoted_cons, length',
      digit_lt_iff own own']
    rw [length'] at low
    rcases Nat.lt_trichotomy (digitOf c) (digitOf d) with less | same | more
    · -- A first digit outweighs all that follow it.
      have outweighs : 10 ^ ds.length * (digitOf c + 1) ≤ 10 ^ ds.length * digitOf d :=
        Nat.mul_le_mul_left _ less
      rw [Nat.mul_succ] at outweighs
      exact iff_of_true (.inl less) (by omega)
    · rw [same, Nat.add_lt_add_iff_left]
      simp [digit_inj own own' same]
    · have outweighs : 10 ^ ds.length * (digitOf d + 1) ≤ 10 ^ ds.length * digitOf c :=
        Nat.mul_le_mul_left _ more
      rw [Nat.mul_succ] at outweighs
      refine iff_of_false ?_ (by omega)
      rintro (less | ⟨same, -⟩)
      · omega
      · exact Nat.lt_irrefl _ (same ▸ more)

theorem eq_iff_denoted_eq (first : AreDigits cs) (second : AreDigits ds)
    (length : cs.length = ds.length) : cs = ds ↔ denoted cs = denoted ds := by
  refine ⟨congrArg denoted, fun same => ?_⟩
  have up := lt_iff_denoted_lt first second length
  have down := lt_iff_denoted_lt second first length.symm
  rcases lt_trichotomy cs ds with less | equal | more
  · exact absurd (up.1 less) (by omega)
  · exact equal
  · exact absurd (down.1 more) (by omega)

/-! ## Zeros in front -/

/-- Digits without the zeros in front of them; of a zero, one is left. -/
def withoutZeros (cs : List Char) : List Char :=
  match cs.dropWhile (· = '0') with
  | [] => ['0']
  | ds => ds

theorem withoutZeros_zeros : withoutZeros (List.replicate k '0' ++ cs) = withoutZeros cs := by
  have dropped : (List.replicate k '0' ++ cs).dropWhile (· = '0') = cs.dropWhile (· = '0') := by
    induction k with
    | zero => rfl
    | succ k ih => rw [List.replicate_succ, List.cons_append, List.dropWhile_cons_of_pos rfl, ih]
  rw [withoutZeros, dropped, withoutZeros]

theorem withoutZeros_toDigits : withoutZeros (Nat.toDigits 10 n) = Nat.toDigits 10 n := by
  rcases Nat.eq_zero_or_pos n with rfl | pos
  · rfl
  · have first := head?_toDigits pos
    obtain ⟨c, cs, chars⟩ := List.exists_cons_of_ne_nil (Nat.toDigits_ne_nil (n := n) (b := 10))
    rw [chars, List.head?_cons, Ne, Option.some_inj] at first
    rw [chars, withoutZeros, List.dropWhile_cons_of_neg (by simpa using first)]

theorem areDigits_padLeft {width : Nat} (digits : AreDigits cs) :
    AreDigits (padLeft '0' width cs) := by
  intro c there
  rcases List.mem_append.1 there with zero | there
  · rw [List.eq_of_mem_replicate zero]
    rfl
  · exact digits c there

/-- **Digits without the zeros in front are the digits of their number.** -/
theorem toDigits_denoted (digits : AreDigits cs) :
    Nat.toDigits 10 (denoted cs) = withoutZeros cs := by
  rcases Nat.eq_zero_or_pos cs.length with empty | pos
  · rw [List.eq_nil_of_length_eq_zero empty]
    rfl
  · -- Filled up with zeros, the digits of the number are the ones that there were.
    have short : (Nat.toDigits 10 (denoted cs)).length ≤ cs.length :=
      (Nat.length_toDigits_le_iff (by decide) pos).2 (denoted_lt digits)
    have length : (padLeft '0' cs.length (Nat.toDigits 10 (denoted cs))).length = cs.length := by
      rw [length_padLeft, Nat.max_eq_left short]
    have filled : padLeft '0' cs.length (Nat.toDigits 10 (denoted cs)) = cs := by
      rw [eq_iff_denoted_eq (areDigits_padLeft (areDigits_toDigits _)) digits length,
        denoted_padLeft, denoted_toDigits]
    rw [← withoutZeros_toDigits, ← withoutZeros_zeros, ← padLeft, filled]

/-! ## Filled up to a width -/

/-- Digits with as many zeros in front as fill a width, and no others. -/
def zeroPadded (width : Nat) (v : String) : String :=
  String.ofList (padLeft '0' width (withoutZeros v.toList))

variable {v w : String} {width : Nat}

theorem areDigits_zeroPadded (digits : AreDigits v.toList) :
    AreDigits (zeroPadded width v).toList := by
  rw [zeroPadded, String.toList_ofList, ← toDigits_denoted digits]
  exact areDigits_padLeft (areDigits_toDigits _)

theorem denoted_zeroPadded (digits : AreDigits v.toList) :
    denoted (zeroPadded width v).toList = denoted v.toList := by
  rw [zeroPadded, String.toList_ofList, denoted_padLeft, ← toDigits_denoted digits,
    denoted_toDigits]

theorem length_zeroPadded (fits : (withoutZeros v.toList).length ≤ width) :
    (zeroPadded width v).toList.length = width := by
  rw [zeroPadded, String.toList_ofList, length_padLeft, Nat.max_eq_left fits]

section
variable (first : AreDigits v.toList) (second : AreDigits w.toList)
  (fits : (withoutZeros v.toList).length ≤ width) (fits' : (withoutZeros w.toList).length ≤ width)
include first second fits fits'

/-- **Numbers that fit into the width are in order as texts.** -/
theorem zeroPadded_lt_iff :
    zeroPadded width v < zeroPadded width w ↔ denoted v.toList < denoted w.toList := by
  rw [String.lt_iff, lt_iff_denoted_lt (areDigits_zeroPadded first) (areDigits_zeroPadded second)
    ((length_zeroPadded fits).trans (length_zeroPadded fits').symm), denoted_zeroPadded first,
    denoted_zeroPadded second]

theorem zeroPadded_inj :
    zeroPadded width v = zeroPadded width w ↔ denoted v.toList = denoted w.toList := by
  rw [← String.toList_inj, eq_iff_denoted_eq (areDigits_zeroPadded first)
    (areDigits_zeroPadded second) ((length_zeroPadded fits).trans (length_zeroPadded fits').symm),
    denoted_zeroPadded first, denoted_zeroPadded second]

end

end FileTags.Number
