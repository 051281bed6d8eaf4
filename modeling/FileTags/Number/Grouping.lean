/-
  Digits in groups, counted from the last digit, with a separator between groups.

  * `separate` puts the separators in; `filter_separate`: it adds nothing else;
  * `digitsToFill` is the number of digits that fill a width, separators counted: the least one
    (`digitsToFill_fills`, `digitsToFill_least`);
  * `grouped` fills a width with leading zeros.
-/
import FileTags.Text.Quoted

namespace FileTags.Number

open Text

/-- The number of digits in a group and the character between groups. -/
structure Grouping where
  size : Nat
  separator : Char
deriving DecidableEq

/-- The effect of one more digit on a separated text that holds `count` digits. -/
def Grouping.put (g : Grouping) (digit : Char) : Nat × List Char → Nat × List Char
  | (count, out) =>
    (count + 1, if count ≠ 0 ∧ count % g.size = 0 then digit :: g.separator :: out else digit :: out)

/-- Digits with a separator between groups. -/
def separate (g : Grouping) (digits : List Char) : List Char :=
  (digits.foldr g.put (0, [])).2

/-- The least number of digits that reach a width, where every full group before the first digit
    takes one place more. -/
def digitsToFill (size width : Nat) : Nat := width - (width - 1) / (size + 1)

/-- Digits in groups, with zeros in front to fill a width. -/
def grouped : Option Grouping → Nat → List Char → List Char
  | none, width, digits => padLeft '0' width digits
  | some g, width, digits => separate g (padLeft '0' (digitsToFill g.size width) digits)

/-! ## What grouping adds -/

theorem filter_separate {g : Grouping} {digits : List Char} (h : g.separator ∉ digits) :
    (separate g digits).filter (· ≠ g.separator) = digits := by
  induction digits with
  | nil => rfl
  | cons d ds ih =>
    simp only [List.mem_cons, not_or] at h
    have step : separate g (d :: ds) =
        (g.put d (ds.foldr g.put (0, []))).2 := rfl
    rw [step, Grouping.put]
    have hd : d ≠ g.separator := fun e => h.1 e.symm
    have rest : (ds.foldr g.put (0, [])).2.filter (fun c => !decide (c = g.separator)) = ds := by
      simpa [separate] using ih h.2
    split <;> simp [hd, rest]

/-- The number of places that some digits take with their separators. -/
def groupedWidth (size count : Nat) : Nat := count + (count - 1) / size

theorem digitsToFill_fills {size : Nat} (hs : 0 < size) (width : Nat) :
    width ≤ groupedWidth size (digitsToFill size width) := by
  unfold groupedWidth digitsToFill
  rcases width with _ | w
  · simp
  · simp only [Nat.add_sub_cancel]
    have split := Nat.div_add_mod w (size + 1)
    have small := Nat.mod_lt w (Nat.succ_pos size)
    generalize w / (size + 1) = q at *
    generalize w % (size + 1) = r at *
    have hq : q ≤ (w + 1 - q - 1) / size := by
      rw [Nat.le_div_iff_mul_le hs]
      rw [Nat.add_mul] at split
      have : q * size = size * q := Nat.mul_comm q size
      omega
    have : q ≤ w := by
      rw [Nat.add_mul] at split
      omega
    omega

theorem digitsToFill_least {size width count : Nat} (hs : 0 < size)
    (h : count < digitsToFill size width) : groupedWidth size count < width := by
  unfold digitsToFill at h
  unfold groupedWidth
  rcases width with _ | w
  · simp at h
  · simp only [Nat.add_sub_cancel] at h
    rcases count with _ | c
    · simp
    · simp only [Nat.add_sub_cancel]
      have split := Nat.div_add_mod w (size + 1)
      have small := Nat.mod_lt w (Nat.succ_pos size)
      generalize w / (size + 1) = q at *
      generalize w % (size + 1) = r at *
      rw [Nat.add_mul, Nat.one_mul] at split
      have : c / size ≤ q := by
        rw [← Nat.lt_succ_iff, Nat.div_lt_iff_lt_mul hs, Nat.succ_mul]
        have : q * size = size * q := Nat.mul_comm q size
        omega
      omega

end FileTags.Number
