/-
  The record of a file: its path with the tags and the attributes it carries.

  Tags are a set and attributes may repeat, both in any order; what is shown is sorted.

  * `Record.values` are the values under a key, `Record.first?` is the smallest of them;
  * `Record.hasAttribute` asks for an attribute with a key and a value, where either may be
    left open; with both open it holds of every record;
  * `sortByAttribute` orders records by the smallest value under a key.
-/
import FileTags.Path

namespace FileTags

/-- What is known about one file. -/
structure Record where
  path : Path
  tags : List String := []
  attributes : List (String × String) := []
deriving DecidableEq, Inhabited

/-- Texts in ascending order of code points. -/
def sortTexts (texts : List String) : List String :=
  texts.mergeSort fun a b => decide (a ≤ b)

/-- Pairs of texts in ascending order, by the first and then by the second. -/
def sortPairs (pairs : List (String × String)) : List (String × String) :=
  pairs.mergeSort fun a b => decide (a.1 < b.1 ∨ a.1 = b.1 ∧ a.2 ≤ b.2)

namespace Record

/-- Whether a record carries a word. -/
def hasTag (r : Record) (name : String) : Bool := decide (name ∈ r.tags)

/-- Whether a record carries an attribute; an open key or value matches every one. -/
def hasAttribute (r : Record) (key value : Option String) : Bool :=
  r.attributes.any (fun (k, v) => key.all (k == ·) && value.all (v == ·)) ||
    (key.isNone && value.isNone)

/-- The values under a key in ascending order. -/
def values (r : Record) (key : String) : List String :=
  sortTexts ((r.attributes.filter (·.1 == key)).map (·.2))

/-- The smallest value under a key. -/
def first? (r : Record) (key : String) : Option String := (r.values key).head?

/-- Whether a record carries nothing. -/
def isEmpty (r : Record) : Bool := r.tags.isEmpty && r.attributes.isEmpty

/-- The words without repetition, in ascending order. -/
def sortedTags (r : Record) : List String := sortTexts r.tags.eraseDups

/-- The attributes in ascending order. -/
def sortedAttributes (r : Record) : List (String × String) := sortPairs r.attributes

end Record

/-! ## Sorting records -/

/-- Whether a record stands before or beside another when sorted by a key: those without the key
    come first, the others follow by their smallest value. -/
def beforeByAttribute (key : String) (r s : Record) : Bool :=
  match r.first? key, s.first? key with
  | none, _ => true
  | some _, none => false
  | some a, some b => decide (a ≤ b)

/-- Records by the smallest value under a key; equal ones keep their order. -/
def sortByAttribute (key : String) (records : List Record) : List Record :=
  records.mergeSort (beforeByAttribute key)

end FileTags
