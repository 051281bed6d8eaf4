/-
  Runs of updates.

  An update names its paths by texts, in any spelling.  A run performs updates one after the
  other and collects what they answer; an update that fails changes nothing.

  * `Index.perform_refines` and `Index.perform_consistent`: what one update does to tables that
    fit together;
  * `Index.run_agrees`: the answers of an index, in a run and after it, are those of a ledger, and
    nothing is left over in the tables.
-/
import FileTags.Proofs.Index.Refinement

namespace FileTags

/-- A change of an index, at paths as they are written. -/
inductive Update where
  | add (path : String) (tag : Tag)
  | remove (path : String) (tag : Tag)
  | removeFile (path : String)
  | move (old new : String)
deriving DecidableEq

/-- What an update answers. -/
inductive Answer where
  | done
  /-- A file was to be forgotten: whether it was there. -/
  | forgot (wasThere : Bool)
  | unknown (fault : UnknownFile)
deriving DecidableEq

/-- Performs updates one after the other. -/
def runUpdates {σ : Type} (perform : σ → Update → Answer × σ) (s : σ) :
    List Update → List Answer × σ
  | [] => ([], s)
  | u :: us =>
    let (answer, s) := perform s u
    let (answers, s) := runUpdates perform s us
    (answer :: answers, s)

/-- The answer and the state of a change that may fail, and then changes nothing. -/
def settle {σ : Type} (s : σ) : Except UnknownFile σ → Answer × σ
  | .ok s' => (.done, s')
  | .error fault => (.unknown fault, s)

namespace Index

/-- The effect of an update on an index. -/
def perform (ix : Index) : Update → Answer × Index
  | .add path tag => (.done, ix.add (.ofString path) tag)
  | .remove path tag => (.done, ix.remove (.ofString path) tag)
  | .removeFile path => (ix.removeFile (.ofString path)).map .forgot id
  | .move old new => settle ix (ix.move (.ofString old) (.ofString new))

/-- The effect of updates on an index. -/
def run (ix : Index) (updates : List Update) : List Answer × Index :=
  runUpdates perform ix updates

end Index

namespace Ledger

/-- The effect of an update on a ledger. -/
def perform (m : Ledger) : Update → Answer × Ledger
  | .add path tag => (.done, m.add (.ofString path) tag)
  | .remove path tag => (.done, m.remove (.ofString path) tag)
  | .removeFile path => (m.removeFile (.ofString path)).map .forgot id
  | .move old new => settle m (m.move (.ofString old) (.ofString new))

/-- The effect of updates on a ledger. -/
def run (m : Ledger) (updates : List Update) : List Answer × Ledger :=
  runUpdates perform m updates

end Ledger

namespace Index

/-- An index and a ledger give the same answers. -/
structure Agrees (ix : Index) (m : Ledger) : Prop where
  get : ∀ path : String, ix.get (.ofString path) = m.get (.ofString path)
  contains : ∀ path : String, ix.contains (.ofString path) = m.contains (.ofString path)
  all : ix.all = m.all
  count : ix.count = m.count

variable {ix : Index} {u : Update}

/-! ## One update -/

theorem perform_refines (k : Keyed ix) :
    (ix.perform u).map id ledger = ix.ledger.perform u := by
  cases u with
  | add path tag => exact Prod.ext rfl (ledger_add k)
  | remove path tag => exact Prod.ext rfl (ledger_remove k)
  | removeFile path => exact Prod.ext (congrArg Answer.forgot removeFile_fst) (ledger_discard k)
  | move old new =>
    simp only [perform, Ledger.perform, ← ledger_move k]
    cases ix.move (.ofString old) (.ofString new) with
    | ok ix' => rfl
    | error fault => rfl

theorem perform_consistent (c : Consistent ix) : Consistent (ix.perform u).2 := by
  cases u with
  | add path tag => exact c.add
  | remove path tag => exact c.remove
  | removeFile path => exact c.discard
  | move old new =>
    simp only [perform]
    cases h : ix.move (.ofString old) (.ofString new) with
    | ok ix' => exact c.move h
    | error fault => exact c

/-! ## Runs -/

theorem run_refines (c : Consistent ix) (updates : List Update) :
    (ix.run updates).map id ledger = ix.ledger.run updates := by
  induction updates generalizing ix with
  | nil => rfl
  | cons u us ih =>
    have step := perform_refines (u := u) c.toKeyed
    have rest := ih (perform_consistent (u := u) c)
    simp only [run, Ledger.run, runUpdates] at rest ⊢
    rw [← step, Prod.map_snd, ← rest]
    rfl

theorem run_consistent (c : Consistent ix) (updates : List Update) :
    Consistent (ix.run updates).2 := by
  induction updates generalizing ix with
  | nil => exact c
  | cons u us ih => exact ih (perform_consistent c)

theorem agrees_ledger (k : Keyed ix) : Agrees ix ix.ledger :=
  ⟨fun _ => get_eq k, fun _ => contains_eq, all_eq k, count_eq k⟩

theorem lookup_ledger_ne_empty (c : Consistent ix) {p : Path} : ix.ledger.lookup p ≠ some ∅ := by
  rw [lookup_ledger]
  intro h
  obtain ⟨id, there, bare⟩ := Option.map_eq_some_iff.1 h
  obtain ⟨t, row⟩ := c.carries id (mem_ids.2 ⟨p, mem_files_of_id? there⟩)
  exact Holdings.eq_empty_iff.1 bare t (mem_holdings.2 row)

theorem isEmpty_of_mem_all (c : Consistent ix) {r : Record} (h : r ∈ ix.all) :
    r.isEmpty = false := by
  rw [all_eq c.toKeyed, Ledger.all] at h
  obtain ⟨p, -, hp⟩ := List.mem_filterMap.1 h
  obtain ⟨held, there, rfl⟩ := Option.map_eq_some_iff.1 hp
  by_contra bare
  refine lookup_ledger_ne_empty c (there.trans (congrArg some ?_))
  simp only [Bool.not_eq_false, Record.isEmpty, Holdings.record, Bool.and_eq_true,
    List.isEmpty_iff] at bare
  refine Holdings.eq_empty_iff.2 fun t row => ?_
  cases t with
  | bare word => simpa [bare.1] using (Finset.mem_sort (· ≤ ·)).2 row
  | pair key value => simpa [bare.2] using (Finset.mem_sort pairLE).2 row

/-- **An index answers like a ledger**, in every run from the empty index and after it.  No file
    is in it that carries nothing, and no row for a tag or an attribute outlives its file. -/
theorem run_agrees (updates : List Update) :
    let (answers, ix) := empty.run updates
    let (answers', m) := Ledger.run ∅ updates
    answers = answers' ∧ Agrees ix m ∧ (∀ r ∈ ix.all, r.isEmpty = false) ∧
      (∀ row ∈ ix.tags, ∃ p, (row.1, p) ∈ ix.files) ∧
      (∀ row ∈ ix.attributes, ∃ p, (row.1, p) ∈ ix.files) := by
  have refines := run_refines Consistent.empty updates
  have c := run_consistent Consistent.empty updates
  rw [ledger_empty] at refines
  rw [← refines]
  refine ⟨rfl, agrees_ledger c.toKeyed, fun r => isEmpty_of_mem_all c, ?_, ?_⟩
  · exact fun row there => mem_ids.1 (c.refers row.1 (.bare row.2) there)
  · exact fun row there => mem_ids.1 (c.refers row.1 (.pair row.2.1 row.2.2) there)

end Index

end FileTags
