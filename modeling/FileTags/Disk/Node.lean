/-
  Trees of files.

  A node is a file, a device, a link to a path, or a directory with named entries.  A node below
  the top is addressed by its location, the names on the way down to it.  A file has a number as
  well, by which it is found wherever it has been moved to; two files with one number are two names
  of the same file.

  * `Node.at?` is the view of a tree: the node at a location;
  * `Node.put` and `Node.erase` change one location (`at?_put_self`);
  * `Node.alter` changes the content of the file with a number, wherever that is (`at?_alter`);
  * `Node.linkCount` counts the links of a tree.
-/
import FileTags.Index

namespace FileTags

/-- What a file holds: bytes, or an index with the version of its layout. -/
inductive Content where
  | bytes (data : ByteArray)
  | index (version : Int) (index : Index)

instance : DecidableEq Content
  | .bytes a, .bytes b =>
    match ByteArray.instDecidableEq a b with
    | isTrue h => isTrue (congrArg Content.bytes h)
    | isFalse h => isFalse fun e => h (Content.bytes.inj e)
  | .index v ix, .index w jx =>
    match decEq v w, decEq ix jx with
    | isTrue h, isTrue h' => isTrue (by rw [h, h'])
    | isFalse h, _ => isFalse fun e => h (Content.index.inj e).1
    | _, isFalse h => isFalse fun e => h (Content.index.inj e).2
  | .bytes _, .index _ _ | .index _ _, .bytes _ => isFalse nofun

/-- The file without bytes. -/
def Content.empty : Content := .bytes ByteArray.empty

/-- The bytes of a text. -/
def Content.ofString (s : String) : Content := .bytes s.toUTF8

/-- The number of a file, which stays the same however the file is renamed and written. -/
structure Inode where
  number : Nat
deriving DecidableEq, Inhabited

/-- The number after another one. -/
def Inode.next (inode : Inode) : Inode := ⟨inode.number + 1⟩

/-- A file, or a directory with all in it. -/
inductive Node where
  /-- A file with its number and its permission bits. -/
  | file (inode : Inode) (content : Content) (mode : Nat)
  | device
  | link (target : String)
  | dir (entries : List (Name × Node))

/-- The names on the way from the top of a tree down to a node. -/
abbrev Location := List Name

namespace Node

instance : Inhabited Node := ⟨.dir []⟩

mutual

/-- Whether two nodes are the same, with all that is in them. -/
def decideEq : (a b : Node) → Decidable (a = b)
  | file i c m, file j c' k =>
    if h : i = j ∧ c = c' ∧ m = k then isTrue (by rw [h.1, h.2.1, h.2.2])
    else isFalse fun e => h (file.inj e)
  | device, device => isTrue rfl
  | link s, link t =>
    if h : s = t then isTrue (congrArg link h) else isFalse fun e => h (link.inj e)
  | dir es, dir fs =>
    match decideEntriesEq es fs with
    | isTrue h => isTrue (congrArg dir h)
    | isFalse h => isFalse fun e => h (dir.inj e)
  | file _ _ _, device | file _ _ _, link _ | file _ _ _, dir _ => isFalse nofun
  | device, file _ _ _ | device, link _ | device, dir _ => isFalse nofun
  | link _, file _ _ _ | link _, device | link _, dir _ => isFalse nofun
  | dir _, file _ _ _ | dir _, device | dir _, link _ => isFalse nofun

/-- Whether some entries are the same. -/
def decideEntriesEq : (es fs : List (Name × Node)) → Decidable (es = fs)
  | [], [] => isTrue rfl
  | (n, a) :: es, (m, b) :: fs =>
    if h : n = m then
      match decideEq a b, decideEntriesEq es fs with
      | isTrue h', isTrue h'' => isTrue (by rw [h, h', h''])
      | isFalse h', _ => isFalse fun e => h' (Prod.mk.inj (List.cons.inj e).1).2
      | _, isFalse h'' => isFalse fun e => h'' (List.cons.inj e).2
    else isFalse fun e => h (Prod.mk.inj (List.cons.inj e).1).1
  | [], _ :: _ | _ :: _, [] => isFalse nofun

end

instance : DecidableEq Node := decideEq

/-! ## Kinds -/

/-- Whether a node is a directory. -/
def isDir : Node → Bool
  | dir _ => true
  | _ => false

/-- Whether a node is a file that can hold something. -/
def isFile : Node → Bool
  | file _ _ _ => true
  | _ => false

/-- Whether a node is a link. -/
def isLink : Node → Bool
  | link _ => true
  | _ => false

/-- Whether two nodes are names of one file. -/
def sameFile : Node → Node → Bool
  | file i _ _, file j _ _ => i = j
  | _, _ => false

/-! ## Looking up -/

/-- The entries of a directory. -/
def entries : Node → List (Name × Node)
  | dir es => es
  | _ => []

/-- The entry of a directory with a name. -/
def child? (node : Node) (n : Name) : Option Node := node.entries.lookup n

/-- The node at a location. -/
def at? : Node → Location → Option Node
  | node, [] => some node
  | node, n :: ns => (node.child? n).bind (·.at? ns)

/-! ## Changing -/

/-- Entries with one more, or with another node under a name. -/
def setEntry (n : Name) (new : Node) : List (Name × Node) → List (Name × Node)
  | [] => [(n, new)]
  | (m, node) :: es => if n = m then (n, new) :: es else (m, node) :: setEntry n new es

/-- Entries without those of a name. -/
def dropEntry (n : Name) (es : List (Name × Node)) : List (Name × Node) :=
  es.filter (n ≠ ·.1)

/-- A tree with a node at a location in an existing directory; without such a directory, the
    tree itself. -/
def put (new : Node) : Location → Node → Node
  | [], _ => new
  | n :: ns, dir es =>
    match es.lookup n with
    | some node => dir (setEntry n (put new ns node) es)
    | none => if ns = [] then dir (setEntry n new es) else dir es
  | _ :: _, node => node

/-- A tree without the node at a location. -/
def erase : Location → Node → Node
  | [n], dir es => dir (dropEntry n es)
  | n :: ns, dir es =>
    match es.lookup n with
    | some node => dir (setEntry n (erase ns node) es)
    | none => dir es
  | _, node => node

mutual

/-- A tree with a change to the content of the file with a number. -/
def alter (inode : Inode) (change : Content → Content) : Node → Node
  | file i content mode => file i (if i = inode then change content else content) mode
  | dir es => dir (alterEntries inode change es)
  | node => node

/-- Entries with a change to the content of the file with a number. -/
def alterEntries (inode : Inode) (change : Content → Content) :
    List (Name × Node) → List (Name × Node)
  | [] => []
  | (n, node) :: es => (n, node.alter inode change) :: alterEntries inode change es

end

/-! ## Counting -/

mutual

/-- The number of links in a tree. -/
def linkCount : Node → Nat
  | link _ => 1
  | dir es => entriesLinkCount es
  | _ => 0

/-- The number of links in some entries. -/
def entriesLinkCount : List (Name × Node) → Nat
  | [] => 0
  | (_, node) :: es => node.linkCount + entriesLinkCount es

end

/-! ## Names of a file -/

theorem sameFile_iff {a b : Node} : a.sameFile b = true ↔
    ∃ inode c m c' m', a = .file inode c m ∧ b = .file inode c' m' := by
  cases a <;> cases b <;> simp [sameFile, eq_comm]

/-! ## Changes seen from locations -/

theorem lookup_entry (n m : Name) (node : Node) (es : List (Name × Node)) :
    ((n, node) :: es).lookup m = if m = n then some node else es.lookup m := by
  rw [List.lookup_cons]
  by_cases h : m = n
  · simp [h]
  · simp [beq_eq_false_iff_ne.2 h, h]

theorem lookup_setEntry (n m : Name) (new : Node) (es : List (Name × Node)) :
    (setEntry n new es).lookup m = if m = n then some new else es.lookup m := by
  induction es with
  | nil => simp [setEntry, lookup_entry]
  | cons e es ih =>
    obtain ⟨k, node⟩ := e
    rw [setEntry]
    split
    · next h => subst h; simp only [lookup_entry]; split <;> rfl
    · next h =>
      simp only [lookup_entry, ih]
      split
      · next hm => subst hm; simp [Ne.symm h]
      · rfl

theorem lookup_dropEntry (n m : Name) (es : List (Name × Node)) :
    (dropEntry n es).lookup m = if m = n then none else es.lookup m := by
  induction es with
  | nil => simp [dropEntry]
  | cons e es ih =>
    obtain ⟨k, node⟩ := e
    rw [dropEntry, List.filter_cons, ← dropEntry]
    split
    · next h =>
      have h : n ≠ k := by simpa using h
      rw [lookup_entry, lookup_entry, ih]
      split
      · next hm => subst hm; simp [Ne.symm h]
      · rfl
    · next h =>
      have h : n = k := by simpa using h
      subst h
      rw [lookup_entry, ih]
      split <;> rfl

@[simp] theorem at?_nil (node : Node) : node.at? [] = some node := rfl

theorem lookup_alterEntries (inode : Inode) (change : Content → Content) (n : Name)
    (es : List (Name × Node)) :
    (alterEntries inode change es).lookup n = (es.lookup n).map (·.alter inode change) := by
  induction es with
  | nil => rfl
  | cons e es ih =>
    obtain ⟨m, node⟩ := e
    rw [alterEntries, lookup_entry, lookup_entry, ih]
    split <;> rfl

theorem child?_alter (inode : Inode) (change : Content → Content) (node : Node) (n : Name) :
    (node.alter inode change).child? n = (node.child? n).map (·.alter inode change) := by
  cases node with
  | dir es => exact lookup_alterEntries inode change n es
  | _ => rfl

/-- **A change to a file is seen at every location that leads to it**, and nowhere else. -/
theorem at?_alter (inode : Inode) (change : Content → Content) (node : Node) (loc : Location) :
    (node.alter inode change).at? loc = (node.at? loc).map (·.alter inode change) := by
  induction loc generalizing node with
  | nil => rfl
  | cons n loc ih =>
    rw [at?, at?, child?_alter]
    cases node.child? n with
    | none => rfl
    | some sub => exact ih sub

theorem at?_append (node : Node) (ls ms : Location) :
    node.at? (ls ++ ms) = (node.at? ls).bind (·.at? ms) := by
  induction ls generalizing node with
  | nil => rfl
  | cons n ls ih =>
    simp only [List.cons_append, at?]
    cases node.child? n with
    | none => rfl
    | some sub => exact ih sub

/-- **What is put is there**, if its directory is. -/
theorem at?_put_self {node new : Node} {loc : Location} {n : Name} {es : List (Name × Node)}
    (h : node.at? loc = some (.dir es)) : (put new (loc ++ [n]) node).at? (loc ++ [n]) = some new := by
  induction loc generalizing node with
  | nil =>
    obtain rfl : node = .dir es := by simpa using h
    simp only [List.nil_append, put]
    split
    · simp [at?, child?, entries, lookup_setEntry]
    · simp [at?, child?, entries, lookup_setEntry]
  | cons m loc ih =>
    cases node with
    | dir fs =>
      simp only [at?, child?, entries] at h
      cases found : fs.lookup m with
      | none => simp [found] at h
      | some sub =>
        simp only [found, Option.bind_some] at h
        simp only [List.cons_append, put, found, at?, child?, entries, lookup_setEntry, if_true,
          Option.bind_some]
        exact ih h
    | _ => simp [at?, child?, entries] at h

end Node

end FileTags
