/-
  Negations in search expressions, and what they do to growing records.

  A condition under an even number of negations asks for something, and one under an odd number
  asks for its absence.

  * `Expr.depths` are the numbers of negations above the conditions of an expression; if they are
    all even it is `Positive`, if they are all odd `Negative`;
  * `Record.Within` says that a record has no more tags and attributes than another one;
  * `holds_of_within`: a positive expression keeps holding of a record that grows, and a negative
    one of a record that shrinks;
  * `depths_of_lex`: a query without `not` denotes an expression without negations.
-/
import FileTags.Proofs.Index.Records
import FileTags.Proofs.Query.Nesting
import Mathlib.Algebra.Ring.Parity

namespace FileTags

/-! ## Growing records -/

/-- A record has no more than another one: how often and in which order the two list their tags
    and attributes makes no difference. -/
def Record.Within (r s : Record) : Prop := r.tags ⊆ s.tags ∧ r.attributes ⊆ s.attributes

namespace Record

variable {r s : Record} {key value : Option String}

theorem within_iff : r.Within s ↔ ∀ t, r.Carries t → s.Carries t := by
  constructor
  · rintro ⟨tags, attributes⟩ (word | ⟨key, value⟩) carried
    · exact tags carried
    · exact attributes carried
  · intro carried
    exact ⟨fun word => carried (.bare word), fun a => carried (.pair a.1 a.2)⟩

theorem hasTag_of_within (within : r.Within s) {word : String} (has : r.hasTag word = true) :
    s.hasTag word = true := by
  rw [hasTag, decide_eq_true_eq] at *
  exact within.1 has

/-- Whichever of key and value are left open, an attribute that is found in a record is found in
    one that has more; with both open there need not be one. -/
theorem hasAttribute_of_within (within : r.Within s) (has : r.hasAttribute key value = true) :
    s.hasAttribute key value = true := by
  rw [hasAttribute, Bool.or_eq_true, List.any_eq_true] at *
  refine has.imp_left ?_
  rintro ⟨a, there, found⟩
  exact ⟨a, within.2 there, found⟩

end Record

namespace Query

/-! ## Negations -/

/-- The number of negations above each tag and attribute of an expression, from left to right. -/
def Expr.depths : Expr → List Nat
  | every => []
  | tag _ => [0]
  | attr _ _ => [0]
  | and left right => left.depths ++ right.depths
  | or left right => left.depths ++ right.depths
  | not expr => expr.depths.map (· + 1)

/-- Every tag and attribute lies under an even number of negations. -/
def Expr.Positive (e : Expr) : Prop := ∀ n ∈ e.depths, Even n

/-- Every tag and attribute lies under an odd number of negations. -/
def Expr.Negative (e : Expr) : Prop := ∀ n ∈ e.depths, Odd n

instance (e : Expr) : Decidable e.Positive := inferInstanceAs (Decidable (∀ n ∈ e.depths, Even n))

variable {e left right : Expr} {r s : Record}

theorem positive_not : (Expr.not e).Positive ↔ e.Negative := by
  simp [Expr.Positive, Expr.Negative, Expr.depths, Nat.even_add_one]

theorem negative_not : (Expr.not e).Negative ↔ e.Positive := by
  simp [Expr.Positive, Expr.Negative, Expr.depths, Nat.odd_add_one]

theorem positive_append (depths : e.depths = left.depths ++ right.depths) :
    e.Positive ↔ left.Positive ∧ right.Positive := by
  rw [Expr.Positive, depths]
  exact List.forall_mem_append

theorem negative_append (depths : e.depths = left.depths ++ right.depths) :
    e.Negative ↔ left.Negative ∧ right.Negative := by
  rw [Expr.Negative, depths]
  exact List.forall_mem_append

theorem not_negative_leaf (depths : e.depths = [0]) : ¬ e.Negative := by
  simp [Expr.Negative, depths]

/-! ## Matching -/

/-- **Matching is monotone by polarity.** The two directions change places at each negation. -/
theorem holds_of_within (within : r.Within s) :
    (e.Positive → e.holds r = true → e.holds s = true) ∧
      (e.Negative → e.holds s = true → e.holds r = true) := by
  induction e with
  | every => exact ⟨fun _ _ => rfl, fun _ _ => rfl⟩
  | tag name =>
    exact ⟨fun _ => Record.hasTag_of_within within, fun negative =>
      absurd negative (not_negative_leaf rfl)⟩
  | attr key value =>
    exact ⟨fun _ => Record.hasAttribute_of_within within, fun negative =>
      absurd negative (not_negative_leaf rfl)⟩
  | and left right ihl ihr =>
    simp only [Expr.holds, Bool.and_eq_true]
    rw [positive_append rfl, negative_append rfl]
    exact ⟨fun positive => And.imp (ihl.1 positive.1) (ihr.1 positive.2),
      fun negative => And.imp (ihl.2 negative.1) (ihr.2 negative.2)⟩
  | or left right ihl ihr =>
    simp only [Expr.holds, Bool.or_eq_true]
    rw [positive_append rfl, negative_append rfl]
    exact ⟨fun positive => Or.imp (ihl.1 positive.1) (ihr.1 positive.2),
      fun negative => Or.imp (ihl.2 negative.1) (ihr.2 negative.2)⟩
  | not e ih =>
    simp only [Expr.holds, Bool.not_eq_true', ← Bool.not_eq_true]
    rw [positive_not, negative_not]
    exact ⟨fun negative => mt (ih.2 negative), fun positive => mt (ih.1 positive)⟩

/-! ## Queries without negations -/

variable {kind : Phrase} {ts rest : List Token} {q : String}

theorem Derives.depths (d : Derives kind ts rest e) (free : .not ∉ ts) :
    .not ∉ rest ∧ ∀ n ∈ e.depths, n = 0 := by
  induction d with
  | tag | pair | key | value =>
    simp only [List.mem_cons, not_or] at free
    exact ⟨by simp only [free, not_false_eq_true], by simp [Expr.depths]⟩
  | colon _ _ ih => exact ih fun there => free (List.mem_cons_of_mem _ there)
  | not => exact absurd List.mem_cons_self free
  | group _ ih =>
    obtain ⟨after, flat⟩ := ih fun there => free (List.mem_cons_of_mem _ there)
    exact ⟨fun there => after (List.mem_cons_of_mem _ there), flat⟩
  | last _ ih => exact ih free
  | or _ _ ihl ihr =>
    obtain ⟨after, flatl⟩ := ihl free
    obtain ⟨last, flatr⟩ := ihr fun there => after (List.mem_cons_of_mem _ there)
    exact ⟨last, List.forall_mem_append.2 ⟨flatl, flatr⟩⟩
  | and _ _ ihl ihr =>
    obtain ⟨after, flatl⟩ := ihl free
    obtain ⟨last, flatr⟩ := ihr after
    exact ⟨last, List.forall_mem_append.2 ⟨flatl, flatr⟩⟩

/-- **A query without `not` denotes an expression without negations.** -/
theorem depths_of_lex (read : lex q = .ok ts) (free : .not ∉ ts) (denotes : parse q = .ok e) :
    ∀ n ∈ e.depths, n = 0 := by
  by_cases all : e = .every
  · rw [all]
    exact List.forall_mem_nil _
  · obtain ⟨ts', read', d⟩ := exists_derives_of_parse denotes all
    obtain rfl : ts = ts' := Except.ok.inj (read.symm.trans read')
    exact (d.depths free).2

end Query

end FileTags
