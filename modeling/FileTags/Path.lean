/-
  Paths with forward slashes, in normal form.

  A path is an anchor (none, `/`, or exactly two slashes) and a list of components.  Reading a
  path drops empty components and components `.`, keeps `..`, and treats three or more leading
  slashes as one; the empty path is `.`.

  * `Name` is a component: it is not empty, not a single dot, and has no slash;
  * `Path.ofString` reads a path, `Path.toString` writes it, and `ofString_toString` says that
    every path is read back from its text;
  * `join`, `parent`, `name?` and `relativeTo?` take paths apart and put them together;
  * `Path.order` compares paths component by component, which keeps the entries of a directory
    together (the order of the texts does not: `a-b` stands between `a` and `a/c`).
-/
import FileTags.Text.Split

namespace FileTags

open Text

/-! ## Components -/

/-- What a component is: some characters, more than a lone dot, and no slash. -/
def IsName (cs : List Char) : Prop := cs ≠ [] ∧ cs ≠ ['.'] ∧ '/' ∉ cs

instance (cs : List Char) : Decidable (IsName cs) := inferInstanceAs (Decidable (_ ∧ _))

/-- A component of a path, also the name of an entry in a directory. -/
structure Name where
  /-- The component as it is written. -/
  text : String
  /-- It can stand between two slashes and means a step of its own. -/
  isName : IsName text.toList
deriving DecidableEq

namespace Name

/-- The component with these characters, if they form one. -/
def ofChars? (cs : List Char) : Option Name :=
  if h : IsName cs then some ⟨String.ofList cs, by simpa using h⟩ else none

/-- The component `..`, the step to the parent. -/
def up : Name := ⟨"..", by decide⟩

/-- The number of bytes a component takes in a file system. -/
def byteSize (n : Name) : Nat := n.text.utf8ByteSize

theorem ext {a b : Name} (h : a.text = b.text) : a = b := by
  cases a; cases b; simp_all

@[simp] theorem ofChars?_toList (n : Name) : ofChars? n.text.toList = some n := by
  have := n.isName
  simp only [ofChars?, this, dite_true, Option.some.injEq]
  exact ext (by simp)

end Name

/-! ## Paths -/

/-- Where a path starts: nowhere, at the root, or at the root written with two slashes. -/
inductive Anchor where
  | relative
  | root
  | doubleRoot
deriving DecidableEq

/-- A path in normal form. -/
structure Path where
  anchor : Anchor
  names : List Name
deriving DecidableEq

namespace Path

/-- The path `.`, of no components. -/
def here : Path := ⟨.relative, []⟩

instance : Inhabited Path := ⟨here⟩

/-- The anchor that a text's leading slashes stand for. -/
def anchorOf (cs : List Char) : Anchor :=
  match (cs.takeWhile (· == '/')).length with
  | 0 => .relative
  | 2 => .doubleRoot
  | _ => .root

/-- The path that some characters denote. -/
def ofChars (cs : List Char) : Path :=
  ⟨anchorOf cs, (splitOn '/' cs).filterMap Name.ofChars?⟩

/-- The path that a text denotes. -/
def ofString (s : String) : Path := ofChars s.toList

/-- The slashes of an anchor. -/
def anchorText : Anchor → List Char
  | .relative => []
  | .root => ['/']
  | .doubleRoot => ['/', '/']

/-- The characters of a path's text. -/
def toChars (p : Path) : List Char :=
  if p = here then ['.'] else anchorText p.anchor ++ join ['/'] (p.names.map (·.text.toList))

/-- The text of a path. -/
protected def toString (p : Path) : String := String.ofList p.toChars

instance : ToString Path := ⟨Path.toString⟩

/-- Whether a path starts at the root. -/
def isAbsolute (p : Path) : Bool := p.anchor != .relative

/-- A path seen from another: an absolute path stays as it is. -/
def join (p q : Path) : Path :=
  if q.isAbsolute then q else ⟨p.anchor, p.names ++ q.names⟩

/-- The path of an entry in a directory. -/
def child (p : Path) (n : Name) : Path := ⟨p.anchor, p.names ++ [n]⟩

/-- The path without its last component; a path without components is its own parent. -/
def parent (p : Path) : Path := ⟨p.anchor, p.names.dropLast⟩

/-- The last component. -/
def name? (p : Path) : Option Name := p.names.getLast?

/-- The components that are left of `names` after `top`. -/
def dropNames? : List Name → List Name → Option (List Name)
  | [], names => some names
  | _ :: _, [] => none
  | t :: top, n :: names => if t = n then dropNames? top names else none

/-- A path as seen from a directory that it lies in or is. -/
def relativeTo? (p top : Path) : Option Path :=
  if p.anchor = top.anchor then (dropNames? top.names p.names).map (⟨.relative, ·⟩) else none

/-- The texts that order paths: the anchor, if there is one, then the components. -/
def parts (p : Path) : List String :=
  (if p.isAbsolute then [String.ofList (anchorText p.anchor)] else []) ++ p.names.map (·.text)

/-- The order of paths by their components, each compared by code point. -/
def order (p q : Path) : Bool := !q.parts.lex p.parts

/-! ## A path is read back from its text -/

theorem filterMap_names (names : List Name) :
    (names.map (·.text.toList)).filterMap Name.ofChars? = names := by
  induction names with
  | nil => rfl
  | cons n names ih => simp [ih]

theorem splitOn_names {names : List Name} (ne : names ≠ []) :
    splitOn '/' (Text.join ['/'] (names.map (·.text.toList))) = names.map (·.text.toList) := by
  refine splitOn_join (by simpa using ne) fun piece h => ?_
  obtain ⟨n, -, rfl⟩ := List.mem_map.1 h
  exact n.isName.2.2

theorem namesOf_joined (names : List Name) :
    (splitOn '/' (Text.join ['/'] (names.map (·.text.toList)))).filterMap Name.ofChars? = names := by
  cases names with
  | nil => decide
  | cons n names => rw [splitOn_names (by simp), filterMap_names]

theorem takeWhile_joined (names : List Name) :
    (Text.join ['/'] (names.map (·.text.toList))).takeWhile (· == '/') = [] := by
  cases names with
  | nil => rfl
  | cons n names =>
    have ne := n.isName.1
    have free := n.isName.2.2
    have step : ∀ rest, (n.text.toList ++ rest).takeWhile (· == '/') = [] := by
      intro rest
      cases e : n.text.toList with
      | nil => exact absurd e ne
      | cons c cs =>
        rw [e] at free
        have : c ≠ '/' := fun h => free (by simp [h])
        simp [this]
    cases names with
    | nil => simpa [Text.join] using step []
    | cons m names =>
      rw [List.map_cons, List.map_cons, join_cons_cons, List.append_assoc]
      exact step _

/-- **A path is read back from its text.** -/
theorem ofChars_toChars (p : Path) : ofChars p.toChars = p := by
  obtain ⟨anchor, names⟩ := p
  unfold toChars
  split
  · next h => rw [h]; decide
  · have shape := takeWhile_joined names
    have kept := namesOf_joined names
    cases anchor <;>
      simp [ofChars, anchorOf, anchorText, splitOn, Name.ofChars?, IsName, shape, kept]

theorem ofString_toString (p : Path) : ofString p.toString = p := by
  simp [ofString, Path.toString, ofChars_toChars]

/-! ## Paths seen from paths -/

theorem dropNames?_eq_some_iff {top names rest : List Name} :
    dropNames? top names = some rest ↔ names = top ++ rest := by
  induction top generalizing names with
  | nil => simp [dropNames?, eq_comm]
  | cons t top ih =>
    cases names with
    | nil => simp [dropNames?]
    | cons n names =>
      simp only [dropNames?, List.cons_append, List.cons.injEq]
      split
      · next h => simp [h, ih]
      · next h => simp [Ne.symm h]

@[simp] theorem join_here (p : Path) : p.join here = p := by
  simp [join, here, isAbsolute]

theorem join_relative (p : Path) (names : List Name) :
    p.join ⟨.relative, names⟩ = ⟨p.anchor, p.names ++ names⟩ := by
  simp [join, isAbsolute]

theorem relativeTo?_join (p q : Path) (h : q.isAbsolute = false) :
    (p.join q).relativeTo? p = some q := by
  obtain ⟨anchor, names⟩ := q
  obtain rfl : anchor = .relative := by simpa [isAbsolute] using h
  simp [join_relative, relativeTo?, dropNames?_eq_some_iff]

theorem isAbsolute_of_relativeTo? {p q top : Path} (h : p.relativeTo? top = some q) :
    q.isAbsolute = false := by
  rw [relativeTo?] at h
  split at h
  · obtain ⟨names, -, rfl⟩ := Option.map_eq_some_iff.1 h
    rfl
  · cases h

theorem join_of_relativeTo? {p q top : Path} (h : p.relativeTo? top = some q) :
    top.join q = p := by
  rw [relativeTo?] at h
  split at h
  · next anchors =>
    obtain ⟨names, left, rfl⟩ := Option.map_eq_some_iff.1 h
    rw [join_relative, ← dropNames?_eq_some_iff.1 left, ← anchors]
  · cases h

end Path

end FileTags
