/-
  Changed trees.

  A walk sees of a node no more than its face: a directory, a link with what it holds, or a leaf.

  * `Node.face?` is the face at a location; `face?_erase` and `face?_put` say what the changes of a
    tree do to it, and `leaf_erase`, `leaf_put` what they leave of files;
  * `Node.eraseAll` takes away what is at some locations; it does not matter in which order
    (`erase_comm`) and what has been put there before (`erase_put`);
  * `Node.shape` is a tree without what its files hold, which is all that `Node.alter` changes;
  * `Node.Within` says that a tree has all faces of another one, `Node.Retains` that it has all of
    its files;
  * `Node.Coherent` says that all names of a file lead to the same.
-/
import FileTags.Disk.Edit
import Mathlib.Data.List.Infix

namespace FileTags.Node

/-- What a walk sees of a node. -/
inductive Face where
  | dir
  | link (target : String)
  | leaf
deriving DecidableEq

theorem Face.dir_ne_link (target : String) : Face.dir ≠ .link target := nofun

theorem Face.leaf_ne_link (target : String) : Face.leaf ≠ .link target := nofun

/-- The face of a node. -/
def face : Node → Face
  | dir _ => .dir
  | link target => .link target
  | _ => .leaf

/-- The face of the node at a location. -/
def face? (top : Node) (loc : Location) : Option Face := (top.at? loc).map face

variable {top node new sub : Node} {loc l : Location} {n m : Name} {es : List (Name × Node)}

/-! ## Faces -/

theorem face_eq_dir : node.face = .dir ↔ ∃ es, node = .dir es := by
  cases node <;> simp [face]

theorem face_eq_link {target : String} : node.face = .link target ↔ node = .link target := by
  cases node <;> simp [face]

theorem isDir_iff_face : node.isDir = true ↔ node.face = .dir := by
  cases node <;> simp [isDir, face]

theorem face?_of_at? (there : top.at? loc = some node) : top.face? loc = some node.face := by
  rw [face?, there, Option.map_some]

@[simp] theorem face?_nil : top.face? [] = some top.face := rfl

theorem face?_cons : top.face? (n :: l) = (top.child? n).bind (·.face? l) := by
  rw [face?, at?]
  cases top.child? n <;> rfl

/-- There is no directory at or below a file or a link. -/
theorem face?_leaf_ne_dir (leaf : node.isDir = false) : node.face? l ≠ some .dir := by
  cases l with
  | nil =>
    rw [face?_nil]
    intro face
    rw [isDir_iff_face.2 (Option.some.inj face)] at leaf
    cases leaf
  | cons n l =>
    rw [face?_cons]
    cases node with
    | dir es => cases leaf
    | _ => nofun

theorem at?_concat : top.at? (loc ++ [n]) = (top.at? loc).bind (·.child? n) := by
  rw [at?_append]
  cases top.at? loc with
  | none => rfl
  | some node => simp only [Option.bind_some, at?]; cases node.child? n <;> rfl

theorem child?_eq_some (h : node.child? n = some sub) : ∃ es, node = .dir es := by
  cases node with
  | dir es => exact ⟨es, rfl⟩
  | _ => cases h

/-- What has something below it is a directory. -/
theorem dir_of_at?_concat (h : (top.at? (loc ++ [n])).isSome) :
    ∃ es, top.at? loc = some (.dir es) := by
  rw [at?_concat] at h
  obtain ⟨node, there⟩ := Option.isSome_iff_exists.1 (Option.isSome_of_isSome_bind h)
  rw [there, Option.bind_some] at h
  obtain ⟨sub, child⟩ := Option.isSome_iff_exists.1 h
  obtain ⟨es, rfl⟩ := child?_eq_some child
  exact ⟨es, there⟩

theorem face?_of_concat {f : Face} (there : top.face? (loc ++ [n]) = some f) :
    top.face? loc = some .dir := by
  obtain ⟨node, at_, -⟩ := Option.map_eq_some_iff.1 there
  obtain ⟨es, above⟩ := dir_of_at?_concat (Option.isSome_of_eq_some at_)
  exact face?_of_at? above

theorem dir_above (below : loc <+: l) (ne : loc ≠ l) (h : (top.at? l).isSome) :
    ∃ es, top.at? loc = some (.dir es) := by
  obtain ⟨rest, rfl⟩ := below
  obtain ⟨n, rest, rfl⟩ : ∃ n more, rest = n :: more :=
    List.exists_cons_of_ne_nil fun e => ne (by simp [e])
  rw [List.append_cons, at?_append] at h
  exact dir_of_at?_concat (Option.isSome_of_isSome_bind h)

/-! ## What is taken away -/

theorem erase_single : erase [n] (.dir es) = .dir (dropEntry n es) := rfl

theorem erase_of_lookup (ne : l ≠ []) (found : es.lookup n = some sub) :
    erase (n :: l) (.dir es) = .dir (setEntry n (erase l sub) es) := by
  cases l with
  | nil => exact absurd rfl ne
  | cons k ks => rw [erase, found]; nofun

theorem erase_of_lookup_none (ne : l ≠ []) (absent : es.lookup n = none) :
    erase (n :: l) (.dir es) = .dir es := by
  cases l with
  | nil => exact absurd rfl ne
  | cons k ks => rw [erase, absent]; nofun

theorem erase_leaf (leaf : node.isDir = false) : erase loc node = node := by
  cases node with
  | dir es => cases leaf
  | _ => match loc with | [] | [_] | _ :: _ :: _ => rfl

@[simp] theorem erase_file {inode : Inode} {content : Content} {mode : Nat} :
    erase loc (.file inode content mode) = .file inode content mode := erase_leaf rfl

@[simp] theorem erase_device : erase loc .device = .device := erase_leaf rfl

@[simp] theorem erase_link {target : String} : erase loc (.link target) = .link target :=
  erase_leaf rfl

theorem child?_erase : (erase (n :: l) node).child? m =
    if m = n then if l = [] then none else (node.child? n).map (erase l) else node.child? m := by
  cases node with
  | dir es =>
    by_cases last : l = []
    · subst last
      exact (lookup_dropEntry n m es).trans (by simp [child?, entries])
    · rw [if_neg last]
      cases found : es.lookup n with
      | none =>
        rw [erase_of_lookup_none last found]
        split
        · next e => simp [child?, entries, e, found]
        · rfl
      | some sub =>
        rw [erase_of_lookup last found]
        refine (lookup_setEntry n m _ es).trans ?_
        simp [child?, entries, found]
  | _ => rw [erase_leaf rfl]; simp [child?, entries]

theorem face_erase : (erase loc node).face = node.face := by
  cases node with
  | dir es =>
    match loc with
    | [] => rfl
    | [_] => rfl
    | n :: k :: ks =>
      cases found : es.lookup n with
      | none => rw [erase_of_lookup_none (List.cons_ne_nil k ks) found]
      | some sub => rw [erase_of_lookup (List.cons_ne_nil k ks) found]; rfl
  | _ => rw [erase_leaf rfl]

/-- Taking away what is at a location leaves the faces elsewhere. -/
theorem face?_erase (ne : loc ≠ []) :
    (erase loc top).face? l = if loc <+: l then none else top.face? l := by
  induction loc generalizing top l with
  | nil => exact absurd rfl ne
  | cons n loc ih =>
    cases l with
    | nil => rw [if_neg (by simp), face?_nil, face?_nil, face_erase]
    | cons m l =>
      rw [face?_cons, face?_cons, child?_erase]
      by_cases e : m = n
      · subst e
        rw [if_pos rfl]
        by_cases last : loc = []
        · simp [last]
        · rw [if_neg last]
          cases top.child? m with
          | none => simp
          | some sub =>
            simp only [Option.map_some, Option.bind_some, ih last, List.cons_prefix_cons, true_and]
      · simp [e, List.cons_prefix_cons, Ne.symm e]

/-- Taking away what is at a location leaves the files and links elsewhere. -/
theorem leaf_erase (there : top.at? l = some node) (leaf : node.isDir = false)
    (apart : ¬ loc <+: l) : (erase loc top).at? l = some node := by
  induction loc generalizing top l with
  | nil => exact absurd List.nil_prefix apart
  | cons n loc ih =>
    cases l with
    | nil =>
      cases there
      rw [erase_leaf leaf, at?_nil]
    | cons m l =>
      rw [at?, child?_erase]
      rw [at?] at there
      by_cases e : m = n
      · subst e
        have apart : ¬ loc <+: l := fun below => apart (List.cons_prefix_cons.2 ⟨rfl, below⟩)
        have inner : loc ≠ [] := fun e => apart (e ▸ List.nil_prefix)
        obtain ⟨sub, child, below⟩ := Option.bind_eq_some_iff.1 there
        rw [if_pos rfl, if_neg inner, child, Option.map_some, Option.bind_some]
        exact ih below apart
      · rw [if_neg e]
        exact there

/-! ## What is put -/

theorem child?_put : (put new (n :: l) (.dir es)).child? m =
    if m = n then
      match es.lookup n with
      | some sub => some (put new l sub)
      | none => if l = [] then some new else none
    else es.lookup m := by
  rw [put]
  cases found : es.lookup n with
  | some sub => exact lookup_setEntry n m _ es
  | none =>
    by_cases last : l = []
    · simp only [last, if_true]
      exact lookup_setEntry n m new es
    · simp only [last, if_false]
      split
      · next e => rw [e]; exact found
      · rfl

/-- Putting a node at a location of an existing directory leaves the faces elsewhere. -/
theorem face?_put (there : top.at? loc = some (.dir es)) : (put new (loc ++ [n]) top).face? l =
    if loc ++ [n] <+: l then new.face? (l.drop (loc ++ [n]).length) else top.face? l := by
  induction loc generalizing top l with
  | nil =>
    obtain rfl : top = .dir es := by simpa using there
    cases l with
    | nil =>
      rw [if_neg (by simp), face?_nil, face?_nil, List.nil_append, put]
      cases es.lookup n <;> simp [face]
    | cons m l =>
      rw [face?_cons, face?_cons, List.nil_append, child?_put]
      by_cases e : m = n
      · subst e
        cases found : es.lookup m <;> simp [put]
      · simp [e, Ne.symm e, child?, entries]
  | cons k loc ih =>
    rw [at?] at there
    obtain ⟨sub, child, below⟩ := Option.bind_eq_some_iff.1 there
    obtain ⟨fs, rfl⟩ := child?_eq_some child
    have found : fs.lookup k = some sub := child
    cases l with
    | nil =>
      rw [if_neg (by simp), face?_nil, face?_nil, List.cons_append, put, found]
      rfl
    | cons m l =>
      rw [face?_cons, face?_cons, List.cons_append, child?_put]
      by_cases e : m = k
      · subst e
        rw [if_pos rfl, found, child]
        simp only [Option.bind_some, ih below, List.cons_prefix_cons, true_and, List.length_cons,
          List.drop_succ_cons]
      · simp [e, Ne.symm e, child?, entries, List.cons_prefix_cons]

/-- Putting a node at a location leaves the files and links elsewhere. -/
theorem leaf_put (there : top.at? l = some node) (leaf : node.isDir = false)
    (apart : ¬ loc <+: l) : (put new loc top).at? l = some node := by
  induction loc generalizing top l with
  | nil => exact absurd List.nil_prefix apart
  | cons n loc ih =>
    cases l with
    | nil =>
      cases there
      cases node with
      | dir es => cases leaf
      | _ => rfl
    | cons m l =>
      rw [at?] at there
      obtain ⟨sub, child, below⟩ := Option.bind_eq_some_iff.1 there
      obtain ⟨es, rfl⟩ := child?_eq_some child
      rw [at?, child?_put]
      have found : es.lookup m = some sub := child
      by_cases e : m = n
      · subst e
        have apart : ¬ loc <+: l := fun below => apart (List.cons_prefix_cons.2 ⟨rfl, below⟩)
        rw [if_pos rfl, found]
        exact ih below apart
      · rw [if_neg e, found]
        exact below

/-! ## Taking away in any order -/

theorem dropEntry_cons {e : Name × Node} :
    dropEntry n (e :: es) = if n = e.1 then dropEntry n es else e :: dropEntry n es := by
  by_cases h : n = e.1 <;> simp [dropEntry, h]

theorem setEntry_cons {e : Name × Node} :
    setEntry n new (e :: es) = if n = e.1 then (n, new) :: es else e :: setEntry n new es := rfl

theorem setEntry_setEntry : setEntry n new (setEntry n sub es) = setEntry n new es := by
  induction es with
  | nil => simp [setEntry]
  | cons e es ih => by_cases h : n = e.1 <;> simp [setEntry_cons, h, ih]

theorem setEntry_comm (ne : n ≠ m) (hn : (es.lookup n).isSome) (hm : (es.lookup m).isSome) :
    setEntry n new (setEntry m sub es) = setEntry m sub (setEntry n new es) := by
  induction es with
  | nil => cases hn
  | cons e es ih =>
    rw [lookup_entry] at hn hm
    by_cases h : n = e.1
    · have other : m ≠ e.1 := fun h' => ne (h.trans h'.symm)
      simp [setEntry_cons, h, other]
    · by_cases h' : m = e.1
      · simp [setEntry_cons, h, h']
      · rw [if_neg h] at hn
        rw [if_neg h'] at hm
        simp [setEntry_cons, h, h', ih hn hm]

theorem dropEntry_setEntry : dropEntry n (setEntry n new es) = dropEntry n es := by
  induction es with
  | nil => simp [setEntry, dropEntry]
  | cons e es ih => by_cases h : n = e.1 <;> simp [setEntry_cons, dropEntry_cons, h, ih]

theorem dropEntry_setEntry_of_ne (ne : n ≠ m) :
    dropEntry n (setEntry m new es) = setEntry m new (dropEntry n es) := by
  induction es with
  | nil => simp [setEntry, dropEntry, ne]
  | cons e es ih =>
    by_cases h : m = e.1
    · have other : n ≠ e.1 := fun h' => ne (h'.trans h.symm)
      simp [setEntry_cons, dropEntry_cons, h, other]
    · rw [setEntry_cons, if_neg h, dropEntry_cons, dropEntry_cons, ih]
      split
      · rfl
      · rw [setEntry_cons, if_neg h]

theorem dropEntry_comm : dropEntry n (dropEntry m es) = dropEntry m (dropEntry n es) := by
  rw [dropEntry, dropEntry, dropEntry, dropEntry, List.filter_comm]

theorem dropEntry_dropEntry : dropEntry n (dropEntry n es) = dropEntry n es := by
  simp [dropEntry]

theorem lookup_dropEntry_of_ne (ne : n ≠ m) : (dropEntry m es).lookup n = es.lookup n :=
  (lookup_dropEntry m n es).trans (if_neg ne)

theorem lookup_setEntry_of_ne (ne : n ≠ m) : (setEntry m new es).lookup n = es.lookup n :=
  (lookup_setEntry m n new es).trans (if_neg ne)

@[simp] theorem erase_nil : erase [] node = node := by
  cases node <;> rfl

/-- Dropping an entry commutes with taking away what is anywhere. -/
theorem erase_single_comm :
    erase [n] (erase (m :: l) (.dir es)) = erase (m :: l) (erase [n] (.dir es)) := by
  by_cases last : l = []
  · rw [last, erase_single, erase_single, erase_single, erase_single, dropEntry_comm]
  · rw [erase_single]
    by_cases e : n = m
    · subst e
      have gone : (dropEntry n es).lookup n = none := (lookup_dropEntry n n es).trans (if_pos rfl)
      rw [erase_of_lookup_none last gone]
      cases found : es.lookup n with
      | none => rw [erase_of_lookup_none last found, erase_single]
      | some sub => rw [erase_of_lookup last found, erase_single, dropEntry_setEntry]
    · have same : (dropEntry n es).lookup m = es.lookup m := lookup_dropEntry_of_ne (Ne.symm e)
      cases found : es.lookup m with
      | none =>
        rw [erase_of_lookup_none last found, erase_of_lookup_none last (same.trans found),
          erase_single]
      | some sub =>
        rw [erase_of_lookup last found, erase_of_lookup last (same.trans found), erase_single,
          dropEntry_setEntry_of_ne e]

theorem erase_comm {k : Location} : erase k (erase l node) = erase l (erase k node) := by
  induction k generalizing l node with
  | nil => rw [erase_nil, erase_nil]
  | cons a as ih =>
    cases l with
    | nil => rw [erase_nil, erase_nil]
    | cons b bs =>
      cases node with
      | dir es =>
        by_cases ha : as = []
        · rw [ha, erase_single_comm]
        by_cases hb : bs = []
        · rw [hb, erase_single_comm]
        by_cases e : a = b
        · subst e
          cases found : es.lookup a with
          | none =>
            rw [erase_of_lookup_none ha found, erase_of_lookup_none hb found,
              erase_of_lookup_none ha found]
          | some sub =>
            have now : ∀ x, (setEntry a x es).lookup a = some x := fun x =>
              (lookup_setEntry a a x es).trans (if_pos rfl)
            rw [erase_of_lookup hb found, erase_of_lookup ha found, erase_of_lookup ha (now _),
              erase_of_lookup hb (now _), setEntry_setEntry, setEntry_setEntry, ih]
        · have keptA : ∀ x, (setEntry b x es).lookup a = es.lookup a := fun x =>
            lookup_setEntry_of_ne e
          have keptB : ∀ x, (setEntry a x es).lookup b = es.lookup b := fun x =>
            lookup_setEntry_of_ne (Ne.symm e)
          cases foundA : es.lookup a with
          | none =>
            cases foundB : es.lookup b with
            | none =>
              rw [erase_of_lookup_none ha foundA, erase_of_lookup_none hb foundB,
                erase_of_lookup_none ha foundA]
            | some sub =>
              rw [erase_of_lookup_none ha foundA, erase_of_lookup hb foundB,
                erase_of_lookup_none ha ((keptA _).trans foundA)]
          | some sub =>
            cases foundB : es.lookup b with
            | none =>
              rw [erase_of_lookup ha foundA, erase_of_lookup_none hb foundB,
                erase_of_lookup_none hb ((keptB _).trans foundB), erase_of_lookup ha foundA]
            | some sub' =>
              rw [erase_of_lookup ha foundA, erase_of_lookup hb foundB,
                erase_of_lookup ha ((keptA _).trans foundA),
                erase_of_lookup hb ((keptB _).trans foundB),
                setEntry_comm e (by rw [foundA]; rfl) (by rw [foundB]; rfl)]
      | _ => simp

theorem erase_erase : erase loc (erase loc node) = erase loc node := by
  induction loc generalizing node with
  | nil => rw [erase_nil]
  | cons n loc ih =>
    cases node with
    | dir es =>
      by_cases last : loc = []
      · rw [last, erase_single, erase_single, dropEntry_dropEntry]
      · cases found : es.lookup n with
        | none => rw [erase_of_lookup_none last found, erase_of_lookup_none last found]
        | some sub =>
          have now : (setEntry n (erase loc sub) es).lookup n = some (erase loc sub) :=
            (lookup_setEntry n n _ es).trans (if_pos rfl)
          rw [erase_of_lookup last found, erase_of_lookup last now, setEntry_setEntry, ih]
    | _ => simp

/-- What has been put at a location does not matter once it is taken away. -/
theorem erase_put (ne : loc ≠ []) : erase loc (put new loc node) = erase loc node := by
  induction loc generalizing node with
  | nil => exact absurd rfl ne
  | cons n loc ih =>
    cases node with
    | dir es =>
      by_cases last : loc = []
      · subst last
        rw [put]
        cases es.lookup n <;> simp only [if_true, erase_single, dropEntry_setEntry, put]
      · rw [put]
        cases found : es.lookup n with
        | none => simp only [last, if_false]
        | some sub =>
          have now : (setEntry n (put new loc sub) es).lookup n = some (put new loc sub) :=
            (lookup_setEntry n n _ es).trans (if_pos rfl)
          rw [erase_of_lookup last found, erase_of_lookup last now, setEntry_setEntry, ih last]
    | _ => rfl

/-- A tree without what is at some locations. -/
def eraseAll (locs : List Location) (node : Node) : Node :=
  locs.foldl (fun node l => erase l node) node

variable {locs : List Location}

theorem eraseAll_append {more : List Location} :
    eraseAll (locs ++ more) node = eraseAll more (eraseAll locs node) := List.foldl_append

theorem eraseAll_erase : eraseAll locs (erase l node) = erase l (eraseAll locs node) := by
  induction locs generalizing node with
  | nil => rfl
  | cons k locs ih => exact (congrArg (eraseAll locs) erase_comm).trans ih

theorem eraseAll_comm {more : List Location} :
    eraseAll more (eraseAll locs node) = eraseAll locs (eraseAll more node) := by
  induction more generalizing node with
  | nil => rfl
  | cons k more ih => exact (congrArg (eraseAll more) eraseAll_erase.symm).trans ih

/-- Taking away what is at some locations leaves the faces elsewhere. -/
theorem face?_eraseAll (ne : ∀ k ∈ locs, k ≠ []) : (eraseAll locs top).face? l =
    if ∃ k ∈ locs, k <+: l then none else top.face? l := by
  induction locs generalizing top with
  | nil => simp [eraseAll]
  | cons k locs ih =>
    have first : (erase k top).face? l = if k <+: l then none else top.face? l :=
      face?_erase (ne k List.mem_cons_self)
    have others : (eraseAll (k :: locs) top).face? l =
        if ∃ k' ∈ locs, k' <+: l then none else (erase k top).face? l :=
      ih fun k' h => ne k' (List.mem_cons_of_mem k h)
    rw [others, first]
    by_cases rest : ∃ k' ∈ locs, k' <+: l
    · simp [rest]
    · by_cases here : k <+: l <;> simp [rest, here]

/-! ## Shapes -/

mutual

/-- A tree whose files hold nothing. -/
def shape : Node → Node
  | file inode _ mode => file inode .empty mode
  | dir es => dir (entryShapes es)
  | node => node

/-- Entries whose files hold nothing. -/
def entryShapes : List (Name × Node) → List (Name × Node)
  | [] => []
  | (n, node) :: es => (n, node.shape) :: entryShapes es

end

theorem lookup_entryShapes : (entryShapes es).lookup n = (es.lookup n).map shape := by
  induction es with
  | nil => rfl
  | cons e es ih =>
    obtain ⟨m, node⟩ := e
    rw [entryShapes, lookup_entry, lookup_entry, ih]
    split <;> rfl

theorem entryShapes_setEntry :
    entryShapes (setEntry n new es) = setEntry n new.shape (entryShapes es) := by
  induction es with
  | nil => rfl
  | cons e es ih =>
    obtain ⟨m, node⟩ := e
    rw [setEntry, entryShapes, setEntry]
    split
    · rfl
    · rw [entryShapes, ih]

theorem entryShapes_dropEntry : entryShapes (dropEntry n es) = dropEntry n (entryShapes es) := by
  induction es with
  | nil => rfl
  | cons e es ih =>
    obtain ⟨m, node⟩ := e
    rw [dropEntry_cons, entryShapes, dropEntry_cons]
    split
    · exact ih
    · rw [entryShapes, ih]

theorem shape_erase : (erase loc node).shape = erase loc node.shape := by
  induction loc generalizing node with
  | nil => rw [erase_nil, erase_nil]
  | cons n loc ih =>
    cases node with
    | dir es =>
      by_cases last : loc = []
      · rw [last, erase_single, shape, shape, erase_single, entryShapes_dropEntry]
      · cases found : es.lookup n with
        | none =>
          have absent : (entryShapes es).lookup n = none := by rw [lookup_entryShapes, found]; rfl
          rw [erase_of_lookup_none last found, shape, erase_of_lookup_none last absent]
        | some sub =>
          have there : (entryShapes es).lookup n = some sub.shape := by
            rw [lookup_entryShapes, found]; rfl
          rw [erase_of_lookup last found, shape, shape, erase_of_lookup last there,
            entryShapes_setEntry, ih]
    | _ => simp [shape]

theorem shape_eraseAll : (eraseAll locs node).shape = eraseAll locs node.shape := by
  induction locs generalizing node with
  | nil => rfl
  | cons l locs ih => exact ih.trans (congrArg (eraseAll locs) shape_erase)

mutual

theorem shape_alter (inode : Inode) (change : Content → Content) :
    ∀ node : Node, (node.alter inode change).shape = node.shape
  | file _ _ _ => rfl
  | device => rfl
  | link _ => rfl
  | dir es => congrArg dir (entryShapes_alter inode change es)

theorem entryShapes_alter (inode : Inode) (change : Content → Content) :
    ∀ es, entryShapes (alterEntries inode change es) = entryShapes es
  | [] => rfl
  | (n, node) :: es =>
    congrArg₂ (fun node es => (n, node) :: es) (shape_alter inode change node)
      (entryShapes_alter inode change es)

end

theorem face_shape : node.shape.face = node.face := by
  cases node <;> rfl

theorem at?_shape : node.shape.at? l = (node.at? l).map shape := by
  induction l generalizing node with
  | nil => rfl
  | cons n l ih =>
    have children : node.shape.child? n = (node.child? n).map shape := by
      cases node with
      | dir es => exact lookup_entryShapes
      | _ => rfl
    rw [at?, at?, children]
    cases node.child? n with
    | none => rfl
    | some sub => exact ih

theorem face?_shape : node.shape.face? l = node.face? l := by
  rw [face?, face?, at?_shape, Option.map_map]
  exact congrArg (Option.map · _) (funext fun _ => face_shape)

/-! ## Links -/

mutual

theorem linkCount_shape : ∀ node : Node, node.shape.linkCount = node.linkCount
  | file _ _ _ => rfl
  | device => rfl
  | link _ => rfl
  | dir es => entriesLinkCount_shape es

theorem entriesLinkCount_shape : ∀ es, entriesLinkCount (entryShapes es) = entriesLinkCount es
  | [] => rfl
  | (_, node) :: es =>
    congrArg₂ (· + ·) (linkCount_shape node) (entriesLinkCount_shape es)

end

theorem entriesLinkCount_dropEntry_le :
    entriesLinkCount (dropEntry n es) ≤ entriesLinkCount es := by
  induction es with
  | nil => exact le_rfl
  | cons e es ih =>
    rw [dropEntry_cons]
    split
    · exact ih.trans (Nat.le_add_left _ _)
    · exact Nat.add_le_add_left ih _

theorem entriesLinkCount_setEntry_le (found : es.lookup n = some sub)
    (fewer : new.linkCount ≤ sub.linkCount) :
    entriesLinkCount (setEntry n new es) ≤ entriesLinkCount es := by
  induction es with
  | nil => cases found
  | cons e es ih =>
    obtain ⟨m, node⟩ := e
    rw [lookup_entry] at found
    rw [setEntry]
    split
    · next same =>
      rw [if_pos same] at found
      cases found
      exact Nat.add_le_add_right fewer _
    · next ne =>
      rw [if_neg ne] at found
      exact Nat.add_le_add_left (ih found) _

theorem linkCount_erase_le : (erase loc node).linkCount ≤ node.linkCount := by
  induction loc generalizing node with
  | nil => rw [erase_nil]
  | cons n loc ih =>
    cases node with
    | dir es =>
      by_cases last : loc = []
      · rw [last, erase_single]
        exact entriesLinkCount_dropEntry_le
      · cases found : es.lookup n with
        | none => rw [erase_of_lookup_none last found]
        | some sub =>
          rw [erase_of_lookup last found]
          exact entriesLinkCount_setEntry_le found ih
    | _ => simp

theorem linkCount_eraseAll_le : (eraseAll locs node).linkCount ≤ node.linkCount := by
  induction locs generalizing node with
  | nil => exact le_rfl
  | cons l locs ih => exact le_trans ih linkCount_erase_le

/-! ## Trees with more in them -/

/-- A tree has all faces of another one. -/
def Within (s t : Node) : Prop := ∀ l f, s.face? l = some f → t.face? l = some f

variable {s t u : Node}

theorem Within.refl : Within t t := fun _ _ => id

theorem Within.trans (first : Within s t) (second : Within t u) : Within s u :=
  fun l f there => second l f (first l f there)

theorem within_of_shape (same : s.shape = t.shape) : Within s t := by
  intro l f there
  rw [← face?_shape, ← same, face?_shape]
  exact there

theorem within_erase : Within (erase loc t) t := by
  intro l f there
  by_cases empty : loc = []
  · rw [empty, erase_nil] at there
    exact there
  · rw [face?_erase empty] at there
    split at there
    · cases there
    · exact there

theorem within_eraseAll : Within (eraseAll locs t) t := by
  induction locs generalizing t with
  | nil => exact .refl
  | cons l locs ih => exact (ih (t := erase l t)).trans within_erase

/-! ## Trees with more files in them -/

/-- A tree has all files of another one where these are, whatever they hold. -/
def Retains (s t : Node) : Prop := ∀ l inode c mode, s.at? l = some (.file inode c mode) →
  ∃ c', t.at? l = some (.file inode c' mode)

theorem Retains.trans (first : Retains s t) (second : Retains t u) : Retains s u := by
  intro l inode c mode there
  obtain ⟨c', there'⟩ := first l inode c mode there
  exact second l inode c' mode there'

theorem retains_of_shape (same : s.shape = t.shape) : Retains s t := by
  intro l inode c mode there
  have shapes : (t.at? l).map shape = some (.file inode .empty mode) := by
    rw [← at?_shape, ← same, at?_shape, there]
    rfl
  obtain ⟨now, there', same⟩ := Option.map_eq_some_iff.1 shapes
  cases now <;> cases same
  exact ⟨_, there'⟩

/-- What is taken away has not been one of the files that are left. -/
theorem retains_erase : Retains (erase loc t) t := by
  intro l inode c mode there
  by_cases empty : loc = []
  · rw [empty, erase_nil] at there
    exact ⟨c, there⟩
  have faces : (erase loc t).face? l = some .leaf := face?_of_at? there
  rw [face?_erase empty] at faces
  split at faces
  · cases faces
  next away =>
    obtain ⟨before, there', leaf⟩ := Option.map_eq_some_iff.1 faces
    have kind : before.isDir = false := by
      cases before with
      | dir es => cases leaf
      | _ => rfl
    have kept := leaf_erase there' kind away
    rw [there] at kept
    cases kept
    exact ⟨c, there'⟩

theorem retains_eraseAll : Retains (eraseAll locs t) t := by
  induction locs generalizing t with
  | nil => exact fun l inode c mode there => ⟨c, there⟩
  | cons l locs ih => exact (ih (t := erase l t)).trans retains_erase

/-! ## Files with several names -/

/-- All names of a file lead to the same. -/
def Coherent (t : Node) : Prop := ∀ l l' a b, t.at? l = some a → t.at? l' = some b →
  a.sameFile b = true → a = b

theorem sameFile_alter {inode : Inode} {change : Content → Content} {a b : Node} :
    (a.alter inode change).sameFile (b.alter inode change) = a.sameFile b := by
  cases a <;> cases b <;> rfl

theorem Coherent.alter (coherent : t.Coherent) (inode : Inode) (change : Content → Content) :
    (t.alter inode change).Coherent := by
  intro l l' a b there there' same
  rw [at?_alter] at there there'
  obtain ⟨a', before, rfl⟩ := Option.map_eq_some_iff.1 there
  obtain ⟨b', before', rfl⟩ := Option.map_eq_some_iff.1 there'
  rw [sameFile_alter] at same
  rw [coherent l l' a' b' before before' same]

mutual

/-- The files of a tree. -/
def fileNodes : Node → List Node
  | file inode content mode => [file inode content mode]
  | dir es => entryFileNodes es
  | _ => []

/-- The files of some entries. -/
def entryFileNodes : List (Name × Node) → List Node
  | [] => []
  | (_, node) :: es => node.fileNodes ++ entryFileNodes es

end

end FileTags.Node
