/-
  Ranges of code points, for the character classes that are tables.

  * `CodeRange` is an interval with both ends in it;
  * `inRanges` says whether one of a list of them holds a code point.
-/

namespace FileTags.Text

/-- The code points from the first to the second, both included. -/
abbrev CodeRange := Nat × Nat

/-- Membership in one range. -/
def CodeRange.Mem (r : CodeRange) (n : Nat) : Prop := r.1 ≤ n ∧ n ≤ r.2

instance (r : CodeRange) (n : Nat) : Decidable (r.Mem n) :=
  inferInstanceAs (Decidable (_ ∧ _))

/-- Whether a code point lies in one of the ranges. -/
def inRanges (rs : List CodeRange) (n : Nat) : Bool :=
  rs.any fun r => decide (r.Mem n)

end FileTags.Text
