/-
  Updates that may be performed in any order.

  Adding or removing a tag is about one item, a tag of a file.  What is done to one item does not
  depend on what is done to another, although the tables may well differ: in one order a file may
  be dropped and entered again with another number, in the other it stays.

  * `Update.Independent` says that two updates are about different items;
  * `Ledger.add_comm`, `Ledger.remove_comm` and `Ledger.add_remove_comm`: two changes of a ledger,
    of the same kind or at different items, in either order;
  * `Ledger.run_perm`: a run of updates of which each two commute, in any order;
  * `Index.ReadsLike` says that two indexes read the same, and `Index.Alike` that they do so
    whatever follows;
  * `Index.run_independent`: updates of an index that are independent, in any order.
-/
import FileTags.Proofs.Index.Records

namespace FileTags

/-! ## Entries of a ledger -/

namespace Holdings

variable {h : Holdings} {t u : Tag}

theorem insert_comm : (h.insert t).insert u = (h.insert u).insert t :=
  ext fun v => by simp only [mem_insert]; tauto

theorem erase_comm : (h.erase t).erase u = (h.erase u).erase t :=
  ext fun v => by simp only [mem_erase]; tauto

theorem erase_insert_of_ne (ne : t ≠ u) : (h.insert t).erase u = (h.erase u).insert t := by
  refine ext fun v => ?_
  simp only [mem_erase, mem_insert]
  constructor
  · rintro ⟨other, rfl | there⟩
    · exact .inl rfl
    · exact .inr ⟨other, there⟩
  · rintro (rfl | ⟨other, there⟩)
    · exact ⟨ne, .inl rfl⟩
    · exact ⟨other, .inr there⟩

theorem empty_erase : (∅ : Holdings).erase t = ∅ :=
  eq_empty_iff.2 fun _ there => not_mem_empty (mem_erase.1 there).2

theorem ifAny_insert : (h.insert t).ifAny = some (h.insert t) :=
  if_neg fun gone => eq_empty_iff.1 gone t (mem_insert.2 (.inl rfl))

theorem ifAny_getD : h.ifAny.getD ∅ = h := by
  unfold ifAny
  split
  · next gone => exact gone.symm
  · rfl

/-- Nothing is left of what a file carries once that is nothing. -/
theorem ifAny_bind_erase : (h.ifAny.bind fun h => (h.erase t).ifAny) = (h.erase t).ifAny := by
  unfold ifAny
  split
  · next gone => rw [gone, empty_erase]; rfl
  · rfl

end Holdings

namespace Ledger

variable {m : Ledger} {p q : Path} {t u : Tag}

/-- A ledger is changed at one path, as its entry there tells. -/
def ChangesAt (p : Path) (change : Option Holdings → Option Holdings) (f : Ledger → Ledger) :
    Prop :=
  ∀ m r, (f m).lookup r = if r = p then change (m.lookup r) else m.lookup r

theorem changesAt_add :
    ChangesAt p (fun entry => some ((entry.getD ∅).insert t)) fun m => m.add p t :=
  fun _ _ => lookup_add

theorem changesAt_remove :
    ChangesAt p (fun entry => entry.bind fun h => (h.erase t).ifAny) fun m => m.remove p t :=
  fun _ _ => lookup_remove

/-- **Two changes commute** if they do on the entry of one path. -/
theorem ChangesAt.comm {f f' : Ledger → Ledger} {change change' : Option Holdings → Option Holdings}
    (at_p : ChangesAt p change f) (at_q : ChangesAt q change' f')
    (comm : p = q → ∀ entry, change' (change entry) = change (change' entry)) (m : Ledger) :
    f' (f m) = f (f' m) := by
  refine Finmap.ext_lookup fun r => ?_
  rw [at_q, at_p, at_p, at_q]
  by_cases hp : r = p
  · by_cases hq : r = q
    · rw [if_pos hp, if_pos hp, if_pos hq, if_pos hq, comm (hp.symm.trans hq)]
    · rw [if_neg hq, if_neg hq]
  · rw [if_neg hp, if_neg hp]

theorem add_comm : (m.add p t).add q u = (m.add q u).add p t := by
  refine changesAt_add.comm changesAt_add (fun _ entry => ?_) m
  rw [Option.getD_some, Option.getD_some, Holdings.insert_comm]

theorem remove_comm : (m.remove p t).remove q u = (m.remove q u).remove p t := by
  refine changesAt_remove.comm changesAt_remove (fun _ entry => ?_) m
  cases entry with
  | none => rfl
  | some h =>
    rw [Option.bind_some, Option.bind_some, Holdings.ifAny_bind_erase, Holdings.ifAny_bind_erase,
      Holdings.erase_comm]

theorem add_remove_comm (ne : (p, t) ≠ (q, u)) :
    (m.add p t).remove q u = (m.remove q u).add p t := by
  refine changesAt_add.comm changesAt_remove (fun same entry => ?_) m
  have other : t ≠ u := fun e => ne (by rw [same, e])
  have left : (entry.bind fun h => (h.erase u).ifAny).getD ∅ = (entry.getD ∅).erase u := by
    cases entry with
    | none => exact Holdings.empty_erase.symm
    | some h => exact Holdings.ifAny_getD
  rw [Option.bind_some, Holdings.erase_insert_of_ne other, Holdings.ifAny_insert, left]

end Ledger

/-! ## Updates -/

namespace Update

/-- The tag of a file that an update adds or removes, if it does that. -/
def item? : Update → Option (Path × Tag)
  | add path tag | remove path tag => some (.ofString path, tag)
  | removeFile _ | move _ _ => none

/-- Two updates add or remove tags, and not the same tag of the same file. -/
def Independent (u v : Update) : Prop :=
  ∃ a b, u.item? = some a ∧ v.item? = some b ∧ a ≠ b

/-- An update adds a tag. -/
def IsAdd (u : Update) : Prop := ∃ path tag, u = add path tag

instance : Std.Symm Independent where
  symm _ _ := fun ⟨a, b, hu, hv, ne⟩ => ⟨b, a, hv, hu, ne.symm⟩

end Update

theorem runUpdates_snd {σ : Type} (perform : σ → Update → Answer × σ) (s : σ)
    (updates : List Update) :
    (runUpdates perform s updates).2 = updates.foldl (fun s u => (perform s u).2) s := by
  induction updates generalizing s with
  | nil => rfl
  | cons u us ih => exact ih (perform s u).2

namespace Ledger

variable {m : Ledger} {u v : Update} {us us' : List Update}

/-- What two updates leave does not depend on their order. -/
def Commute (u v : Update) : Prop :=
  ∀ m : Ledger, ((m.perform u).2.perform v).2 = ((m.perform v).2.perform u).2

theorem commute_of_independent (independent : u.Independent v) : Commute u v := by
  obtain ⟨a, b, hu, hv, ne⟩ := independent
  intro m
  cases u with
  | add path tag =>
    obtain rfl := Option.some.inj hu
    cases v with
    | add path' tag' => exact add_comm
    | remove path' tag' =>
      obtain rfl := Option.some.inj hv
      exact add_remove_comm ne
    | removeFile path' | move old new => cases hv
  | remove path tag =>
    obtain rfl := Option.some.inj hu
    cases v with
    | add path' tag' =>
      obtain rfl := Option.some.inj hv
      exact (add_remove_comm ne.symm).symm
    | remove path' tag' => exact remove_comm
    | removeFile path' | move old new => cases hv
  | removeFile path | move old new => cases hu

theorem commute_of_isAdd (hu : u.IsAdd) (hv : v.IsAdd) : Commute u v := by
  obtain ⟨path, tag, rfl⟩ := hu
  obtain ⟨path', tag', rfl⟩ := hv
  exact fun m => add_comm

/-- **A run in any order**, if each two updates of it commute. -/
theorem run_perm (perm : us.Perm us') (commute : ∀ u ∈ us, ∀ v ∈ us, Commute u v) :
    (m.run us).2 = (m.run us').2 := by
  rw [run, run, runUpdates_snd, runUpdates_snd]
  exact perm.foldl_eq' (fun u hu v hv m => commute u hu v hv m) m

theorem run_perm_of_independent (perm : us.Perm us') (independent : us.Pairwise Update.Independent) :
    (m.run us).2 = (m.run us').2 := by
  refine run_perm perm fun u hu v hv => ?_
  by_cases same : u = v
  · subst same
    exact fun m => rfl
  · exact commute_of_independent (independent.forall hu hv same)

theorem run_perm_of_isAdd (perm : us.Perm us') (adds : ∀ u ∈ us, u.IsAdd) :
    (m.run us).2 = (m.run us').2 :=
  run_perm perm fun u hu v hv => commute_of_isAdd (adds u hu) (adds v hv)

end Ledger

/-! ## Indexes -/

namespace Index

/-- Two indexes read the same. -/
structure ReadsLike (ix ix' : Index) : Prop where
  all : ix.all = ix'.all
  count : ix.count = ix'.count
  get : ∀ p, ix.get p = ix'.get p
  contains : ∀ p, ix.contains p = ix'.contains p

/-- Nothing tells two indexes apart: whatever updates follow, they answer the same and leave what
    reads the same. -/
def Alike (ix ix' : Index) : Prop :=
  ∀ updates, (ix.run updates).1 = (ix'.run updates).1 ∧
    ReadsLike (ix.run updates).2 (ix'.run updates).2

variable {ix ix' : Index} {us us' : List Update}

theorem readsLike_of_ledger (k : Keyed ix) (k' : Keyed ix') (same : ix.ledger = ix'.ledger) :
    ReadsLike ix ix' where
  all := by rw [all_eq k, all_eq k', same]
  count := by rw [count_eq k, count_eq k', same]
  get p := by rw [get_eq k, get_eq k', same]
  contains p := by rw [contains_eq, contains_eq, same]

theorem readsLike_run (c : Consistent ix) (c' : Consistent ix')
    (same : (ix.ledger.run us).2 = (ix'.ledger.run us').2) :
    ReadsLike (ix.run us).2 (ix'.run us').2 := by
  refine readsLike_of_ledger (run_consistent c us).toKeyed (run_consistent c' us').toKeyed ?_
  have left : (ix.run us).2.ledger = (ix.ledger.run us).2 := congrArg Prod.snd (run_refines c us)
  have right : (ix'.run us').2.ledger = (ix'.ledger.run us').2 :=
    congrArg Prod.snd (run_refines c' us')
  rw [left, right, same]

theorem alike_of_ledger (c : Consistent ix) (c' : Consistent ix') (same : ix.ledger = ix'.ledger) :
    Alike ix ix' := by
  intro updates
  have left : (ix.run updates).1 = (ix.ledger.run updates).1 :=
    congrArg Prod.fst (run_refines c updates)
  have right : (ix'.run updates).1 = (ix'.ledger.run updates).1 :=
    congrArg Prod.fst (run_refines c' updates)
  exact ⟨by rw [left, right, same], readsLike_run c c' (by rw [same])⟩

/-- **Independent updates commute**, in every state that updates lead to.  So each two of them may
    be swapped, and any number of them may be performed in any order; updates that only add tags
    may be performed in any order as well, be they independent or not. -/
theorem run_independent (updates : List Update) :
    let ix := (empty.run updates).2
    (∀ u v : Update, u.Independent v → ReadsLike (ix.run [u, v]).2 (ix.run [v, u]).2) ∧
    (∀ us us' : List Update, us.Perm us' → us.Pairwise Update.Independent →
      ReadsLike (ix.run us).2 (ix.run us').2) ∧
    ∀ us us' : List Update, us.Perm us' → (∀ u ∈ us, u.IsAdd) →
      ReadsLike (ix.run us).2 (ix.run us').2 := by
  intro ix
  have c : Consistent ix := run_consistent Consistent.empty updates
  refine ⟨fun u v independent => ?_, fun us us' perm independent => ?_,
    fun us us' perm adds => ?_⟩
  · exact readsLike_run c c (Ledger.commute_of_independent independent ix.ledger)
  · exact readsLike_run c c (Ledger.run_perm_of_independent perm independent)
  · exact readsLike_run c c (Ledger.run_perm_of_isAdd perm adds)

/-- A file with one tag, which is removed while it gets an attribute by another spelling of its
    path: in one order it keeps its number, in the other it gets a new one. -/
theorem run_independent_renumbered :
    let ix := (empty.run [.add "a" (.bare "x")]).2
    let u := Update.remove "a" (.bare "x")
    let v := Update.add "./a" (.pair "k" "v")
    u.Independent v ∧ (ix.run [u, v]).2.ids = [2] ∧ (ix.run [v, u]).2.ids = [1] ∧
      ReadsLike (ix.run [u, v]).2 (ix.run [v, u]).2 := by
  intro ix u v
  have independent : u.Independent v := ⟨_, _, rfl, rfl, by decide⟩
  exact ⟨independent, by decide, by decide,
    (run_independent [.add "a" (.bare "x")]).1 u v independent⟩

end Index

end FileTags
