/-
  A ledger: what an index says, without its tables.

  A ledger is a map from paths to what their files carry, a set of words and a set of attributes.
  Its operations say what writing, deleting, forgetting and renaming mean; its readings say what
  is shown of it.

  * `Ledger.add`, `Ledger.remove`, `Ledger.removeFile` and `Ledger.move` are the operations;
  * `Ledger.get`, `Ledger.contains`, `Ledger.all` and `Ledger.count` are the readings.
-/
import FileTags.Index
import FileTags.Proofs.Order
import Mathlib.Data.Finmap

namespace FileTags

/-- What a file carries. -/
structure Holdings where
  words : Finset String
  attributes : Finset (String × String)
deriving DecidableEq

namespace Holdings

instance : EmptyCollection Holdings := ⟨⟨∅, ∅⟩⟩

instance : Membership Tag Holdings where
  mem h
    | .bare word => word ∈ h.words
    | .pair key value => (key, value) ∈ h.attributes

/-- Puts a tag into its set. -/
def insert (h : Holdings) : Tag → Holdings
  | .bare word => { h with words := Insert.insert word h.words }
  | .pair key value => { h with attributes := Insert.insert (key, value) h.attributes }

/-- Takes a tag out of its set. -/
def erase (h : Holdings) : Tag → Holdings
  | .bare word => { h with words := h.words.erase word }
  | .pair key value => { h with attributes := h.attributes.erase (key, value) }

/-- The record of a file at a path that carries this. -/
def record (h : Holdings) (p : Path) : Record where
  path := p
  tags := h.words.sort (· ≤ ·)
  attributes := h.attributes.sort pairLE

variable {h h' : Holdings} {t u : Tag}

@[simp] theorem bare_mem {word : String} : Tag.bare word ∈ h ↔ word ∈ h.words := Iff.rfl

@[simp] theorem pair_mem {key value : String} :
    Tag.pair key value ∈ h ↔ (key, value) ∈ h.attributes := Iff.rfl

theorem ext (same : ∀ t : Tag, t ∈ h ↔ t ∈ h') : h = h' := by
  obtain ⟨words, attributes⟩ := h
  obtain ⟨words', attributes'⟩ := h'
  obtain rfl : words = words' := by
    ext word
    exact same (.bare word)
  obtain rfl : attributes = attributes' := by
    ext ⟨key, value⟩
    exact same (.pair key value)
  rfl

@[simp] theorem not_mem_empty : t ∉ (∅ : Holdings) := by
  cases t with
  | bare word => exact Finset.notMem_empty word
  | pair key value => exact Finset.notMem_empty (key, value)

theorem eq_empty_iff : h = ∅ ↔ ∀ t, t ∉ h := by
  constructor
  · rintro rfl t
    exact not_mem_empty
  · intro bare
    exact ext fun t => ⟨fun ht => absurd ht (bare t), fun ht => absurd ht not_mem_empty⟩

@[simp] theorem mem_insert : u ∈ h.insert t ↔ u = t ∨ u ∈ h := by
  cases t <;> cases u <;> simp [insert]

@[simp] theorem mem_erase : u ∈ h.erase t ↔ u ≠ t ∧ u ∈ h := by
  cases t <;> cases u <;> simp [erase]

end Holdings

/-- What the files at the paths of an index carry. -/
abbrev Ledger := Finmap fun _ : Path => Holdings

namespace Ledger

/-! ## Writing -/

/-- Puts a tag to a path, which gets an entry if it has none. -/
def add (m : Ledger) (p : Path) (t : Tag) : Ledger :=
  m.insert p (((m.lookup p).getD ∅).insert t)

/-- Takes a tag from a path, whose entry is dropped if nothing is left in it. -/
def remove (m : Ledger) (p : Path) (t : Tag) : Ledger :=
  match m.lookup p with
  | none => m
  | some h => if h.erase t = ∅ then m.erase p else m.insert p (h.erase t)

/-- Drops the entry of a path, and says whether it was there. -/
def removeFile (m : Ledger) (p : Path) : Bool × Ledger := (decide (p ∈ m), m.erase p)

/-- Moves the entry of a path to another one, in place of what was there. -/
def move (m : Ledger) (old new : Path) : Except UnknownFile Ledger :=
  match m.lookup old with
  | none => .error ⟨old⟩
  | some h => if old = new then .ok m else .ok ((m.erase old).insert new h)

/-! ## Reading -/

/-- The record of the file at a path, or the fault that there is none. -/
def get (m : Ledger) (p : Path) : Except UnknownFile Record :=
  match m.lookup p with
  | none => .error ⟨p⟩
  | some h => .ok (h.record p)

/-- Whether a path has an entry. -/
def contains (m : Ledger) (p : Path) : Bool := decide (p ∈ m)

/-- All records, in the order of the texts of their paths. -/
def all (m : Ledger) : List Record :=
  (m.keys.sort Path.textLE).filterMap fun p => (m.lookup p).map (·.record p)

/-- The number of entries. -/
def count (m : Ledger) : Nat := m.keys.card

/-! ## Entries -/

variable {m : Ledger} {p q : Path} {h : Holdings}

theorem lookup_insert : (m.insert p h).lookup q = if q = p then some h else m.lookup q := by
  split
  · next e => rw [e, Finmap.lookup_insert]
  · next ne => exact Finmap.lookup_insert_of_ne m ne

theorem lookup_erase : (m.erase p).lookup q = if q = p then none else m.lookup q := by
  split
  · next e => rw [e, Finmap.lookup_erase]
  · next ne => exact Finmap.lookup_erase_ne ne

theorem erase_insert : (m.insert p h).erase p = m.erase p := by
  refine Finmap.ext_lookup fun q => ?_
  rw [lookup_erase, lookup_erase, lookup_insert]
  split <;> rfl

theorem insert_erase : (m.erase p).insert p h = m.insert p h := by
  refine Finmap.ext_lookup fun q => ?_
  rw [lookup_insert, lookup_insert, lookup_erase]
  split <;> rfl

theorem erase_of_lookup (absent : m.lookup p = none) : m.erase p = m := by
  refine Finmap.ext_lookup fun q => ?_
  rw [lookup_erase]
  split
  · next e => rw [e, absent]
  · rfl

end Ledger

end FileTags
