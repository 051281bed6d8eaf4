/-
  Rounding of natural numbers.

  A quotient is rounded to the nearest integer, and to the even one of two that are equally
  near.  The same rule rounds a number to a number of decimal digits.

  * `roundDiv` rounds a quotient: it is nearest (`roundDiv_near`) and exact where the division is
    (`roundDiv_mul`);
  * `significant` gives the leading decimal digits of a number and its power of ten.
-/

namespace FileTags.Number

/-! ## Quotients -/

/-- The integer nearest to `n / d`, the even one of two. -/
def roundDiv (n d : Nat) : Nat :=
  if d < 2 * (n % d) ∨ d = 2 * (n % d) ∧ n / d % 2 = 1 then n / d + 1 else n / d

theorem roundDiv_near {d : Nat} (hd : 0 < d) (n : Nat) :
    2 * n ≤ 2 * (d * roundDiv n d) + d ∧ 2 * (d * roundDiv n d) ≤ 2 * n + d := by
  have split := Nat.div_add_mod n d
  have small := Nat.mod_lt n hd
  unfold roundDiv
  split
  · rw [Nat.mul_add, Nat.mul_one]; omega
  · omega

theorem roundDiv_mul {d : Nat} (hd : 0 < d) (n : Nat) : roundDiv (d * n) d = n := by
  simp [roundDiv, hd, Nat.ne_of_gt]

/-! ## Decimal digits -/

/-- The decimal digits of a number. -/
def decimal (n : Nat) : List Char := Nat.toDigits 10 n

/-- The first `count` decimal digits of a number, rounded at the last of them, and the power of
    ten at which the first one stands. -/
def significant (count n : Nat) : List Char × Nat :=
  let size := (decimal n).length
  if size ≤ count then (decimal n ++ List.replicate (count - size) '0', size - 1)
  else
    let rounded := decimal (roundDiv n (Nat.pow 10 (size - count)))
    if rounded.length ≤ count then (rounded, size - 1) else (rounded.take count, size)

end FileTags.Number
