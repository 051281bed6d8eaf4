/-
  What renaming does to a disk.

  * `Disk.entrance` is the place that a path names for a renaming, and `Disk.lacking` is a disk
    without what is at such places;
  * `Disk.Renamed` says what becomes of a disk when a node moves from one place to another, and
    `Disk.renamed_of_rename` that this is what renaming does;
  * `Renamed.face?_eq` and `Renamed.leaf` say what is where afterwards, and `Renamed.erased` that
    the rest of the tree is as it was;
  * `Disk.exists_rename`: when a file can be renamed.
-/
import FileTags.Proofs.Disk.Resolving

namespace FileTags

open Node

namespace Disk

variable {d d' : Disk} {p q : Path} {src tgt loc dir l : Location} {n m : Name} {node : Node}

/-- The place that a path names for a renaming: an entry, there or missing, of a directory. -/
def entrance (d : Disk) (p : Path) : Option Location :=
  match d.entryOf p with
  | .ok (dir, some n) => some (dir ++ [n])
  | _ => none

/-- A disk without what is at some paths. -/
def lacking (d : Disk) (paths : List Path) : Disk :=
  { d with top := eraseAll (paths.filterMap d.entrance) d.top }

theorem entryOf_eq_ok (named : d.entryOf p = .ok (dir, some n)) :
    d.lookup true p.parent = .ok (.found dir) ∧ d.top.face? dir = some .dir ∧
      n ≠ Name.up ∧ p = p.parent.child n := by
  rw [entryOf] at named
  split at named
  · cases named
  · next dir' located =>
    split at named
    · next isDir =>
      obtain ⟨rfl, last⟩ := Prod.mk.inj (Except.ok.inj named)
      obtain ⟨last, proper⟩ := Option.filter_eq_some_iff.1 last
      refine ⟨?_, ?_, by simpa using proper, ?_⟩
      · rw [locate] at located
        split at located
        · cases located
        · next found => rw [found, Except.ok.inj located]
        · cases located
      · cases at_ : d.top.at? dir' with
        | none => rw [at_] at isDir; cases isDir
        | some node =>
          rw [at_] at isDir
          rw [face?, at_, Option.map_some, isDir_iff_face.1 isDir]
      · obtain ⟨anchor, names⟩ := p
        obtain ⟨names, rfl⟩ := List.getLast?_eq_some_iff.1 last
        simp [Path.child, Path.parent]
    · cases named

theorem entrance_eq_some : d.entrance p = some loc ↔
    ∃ dir n, loc = dir ++ [n] ∧ d.entryOf p = .ok (dir, some n) := by
  rw [entrance]
  constructor
  · intro named
    split at named
    · next dir n entry =>
      cases named
      exact ⟨dir, n, rfl, entry⟩
    · cases named
  · rintro ⟨dir, n, rfl, entry⟩
    rw [entry]

/-- The place that a path names by its names alone is where it leads. -/
theorem Leads.eq_of_entrance (leads : d.Leads p l) (named : d.entrance p = some loc) :
    loc = l := by
  obtain ⟨dir, n, rfl, entry⟩ := entrance_eq_some.1 named
  obtain ⟨found, -, ne, same⟩ := entryOf_eq_ok entry
  rw [same] at leads
  obtain ⟨l', rfl, above⟩ := leads.of_child ne
  rw [above.lookup (above.fits found)] at found
  cases found
  rfl

/-- What has been found out when a renaming begins. -/
theorem rename_cases (renamed : d.rename p q = .ok d') :
    ∃ sdir n tdir m, d.entryOf p = .ok (sdir, some n) ∧ d.entryOf q = .ok (tdir, some m) ∧
      q.hasNull = false ∧ q.toString.utf8ByteSize ≤ pathLimit ∧ m.byteSize ≤ nameLimit ∧
      ¬ sdir ++ [n] <+: tdir ∧ ¬ tdir ++ [m] <+: sdir ∧
      d.moveNode (sdir ++ [n]) (tdir ++ [m]) = .ok d' := by
  rw [rename] at renamed
  split at renamed
  · cases renamed
  next null =>
  split at renamed
  · cases renamed
  next long =>
  simp only [Bool.or_eq_true, not_or, Bool.not_eq_true] at null
  simp only [not_or, Nat.not_lt] at long
  split at renamed
  · cases renamed
  · cases renamed
  · next sdir n tdir m source target =>
    split at renamed
    · cases renamed
    next names =>
    split at renamed
    · cases renamed
    next inside =>
    split at renamed
    · cases renamed
    next above =>
    simp only [not_or, Nat.not_lt] at names
    rw [List.isPrefixOf_iff_prefix] at inside above
    exact ⟨sdir, n, tdir, m, source, target, null.2, long.2, names.2, inside, above, renamed⟩
  · cases renamed

/-- What is moved stays as it is, or goes to a place that it may replace. -/
theorem moveNode_cases (moved : d.moveNode src tgt = .ok d') :
    ∃ node, d.top.at? src = some node ∧
      (d.Rests node src tgt ∧ d' = d ∨
        ¬ d.Rests node src tgt ∧ replaceError? node (d.top.at? tgt) = none ∧
          d' = { d with
            top := Node.put node tgt (d.top.erase src)
            current := d.current.moved src tgt }) := by
  rw [moveNode] at moved
  split at moved
  · cases moved
  next node there =>
  refine ⟨node, there, ?_⟩
  split at moved
  next rests =>
    cases moved
    exact .inl ⟨rests, rfl⟩
  next moves =>
    split at moved
    · cases moved
    next free =>
      cases moved
      exact .inr ⟨moves, free, rfl⟩

/-! ## What becomes of the disk -/

/-- A node moves from one place to another, unless it may stay where it is. -/
structure Renamed (d d' : Disk) (src tgt : Location) (node : Node) : Prop where
  there : d.top.at? src = some node
  dir : ∃ dir n, tgt = dir ++ [n] ∧ d.top.face? dir = some .dir
  proper : src ≠ []
  apart : src ≠ tgt → ¬ src <+: tgt ∧ ¬ tgt <+: src
  free : ¬ d.Rests node src tgt → replaceError? node (d.top.at? tgt) = none
  top : d'.top = if d.Rests node src tgt then d.top else Node.put node tgt (d.top.erase src)
  current : d'.current = if d.Rests node src tgt then d.current else d.current.moved src tgt

/-- **Renaming moves a node** from one place to another. -/
theorem renamed_of_rename (renamed : d.rename p q = .ok d') :
    ∃ src tgt node, d.entrance p = some src ∧ d.entrance q = some tgt ∧
      Renamed d d' src tgt node := by
  obtain ⟨sdir, n, tdir, m, source, target, -, -, -, inside, above, moved⟩ := rename_cases renamed
  obtain ⟨node, there, result⟩ := moveNode_cases moved
  have apart : sdir ++ [n] ≠ tdir ++ [m] →
      ¬ sdir ++ [n] <+: tdir ++ [m] ∧ ¬ tdir ++ [m] <+: sdir ++ [n] := by
    intro ne
    rw [List.prefix_concat_iff, List.prefix_concat_iff]
    simp [ne, ne.symm, inside, above]
  have dir : ∃ dir n, tdir ++ [m] = dir ++ [n] ∧ d.top.face? dir = some .dir :=
    ⟨tdir, m, rfl, (entryOf_eq_ok target).2.1⟩
  refine ⟨sdir ++ [n], tdir ++ [m], node, by simp [entrance, source], by simp [entrance, target],
    ?_⟩
  rcases result with ⟨rests, rfl⟩ | ⟨moves, free, rfl⟩
  · exact ⟨there, dir, by simp, apart, fun moves => absurd rests moves, by rw [if_pos rests],
      by rw [if_pos rests]⟩
  · exact ⟨there, dir, by simp, apart, fun _ => free, by rw [if_neg moves], by rw [if_neg moves]⟩

/-- What rests where it is has the same kind at both places. -/
theorem Rests.face?_eq (rests : d.Rests node src tgt) (there : d.top.at? src = some node) :
    d.top.face? tgt = some node.face := by
  rcases rests with rfl | same
  · exact face?_of_at? there
  · obtain ⟨other, at_, same⟩ := (Option.any_eq_true _ _).1 same
    obtain ⟨inode, c, m, c', m', rfl, rfl⟩ := sameFile_iff.1 same
    exact (face?_of_at? at_ : _ = some (file inode c' m').face)

namespace Renamed

/-- What a renaming has put and taken away does not matter once both places are cleared. -/
theorem erased (r : Renamed d d' src tgt node) :
    (d'.top.erase src).erase tgt = (d.top.erase src).erase tgt := by
  rw [r.top]
  split
  · rfl
  · obtain ⟨dir, n, rfl, -⟩ := r.dir
    rw [erase_comm, erase_put (by simp), erase_comm, erase_erase]

theorem ne (moves : ¬ d.Rests node src tgt) : src ≠ tgt := fun same => moves (.inl same)

theorem dir_left (r : Renamed d d' src tgt node) (moves : ¬ d.Rests node src tgt) :
    ∃ dir n es, tgt = dir ++ [n] ∧ (d.top.erase src).at? dir = some (.dir es) := by
  obtain ⟨dir, n, rfl, face⟩ := r.dir
  have above : ¬ src <+: dir := fun h => (r.apart (ne moves)).1 (h.trans (List.prefix_append _ _))
  have left : (d.top.erase src).face? dir = some .dir := by
    rw [face?_erase r.proper, if_neg above, face]
  obtain ⟨sub, at_, isDir⟩ := Option.map_eq_some_iff.1 left
  obtain ⟨es, rfl⟩ := face_eq_dir.1 isDir
  exact ⟨dir, n, es, rfl, at_⟩

/-- The node is where it has been moved to. -/
theorem at?_tgt (r : Renamed d d' src tgt node) (moves : ¬ d.Rests node src tgt) :
    d'.top.at? tgt = some node := by
  obtain ⟨dir, n, es, rfl, at_⟩ := r.dir_left moves
  rw [r.top, if_neg moves]
  exact at?_put_self at_

/-- **The faces after a renaming.** -/
theorem face?_eq (r : Renamed d d' src tgt node) (moves : ¬ d.Rests node src tgt) :
    d'.top.face? l =
      if tgt <+: l then node.face? (l.drop tgt.length)
      else if src <+: l then none
      else d.top.face? l := by
  obtain ⟨dir, n, es, rfl, at_⟩ := r.dir_left moves
  rw [r.top, if_neg moves, face?_put at_, face?_erase r.proper]

/-- A file or a link elsewhere is where it was. -/
theorem leaf (r : Renamed d d' src tgt node) {leaf : Node} (there : d.top.at? l = some leaf)
    (kind : leaf.isDir = false) (away : ¬ src <+: l) (spared : ¬ tgt <+: l) :
    d'.top.at? l = some leaf := by
  rw [r.top]
  split
  · exact there
  · exact leaf_put (leaf_erase there kind away) kind spared

/-- A file that has another name stays, and that name leads to it already. -/
theorem at?_tgt_of_coherent (r : Renamed d d' src tgt node) (coherent : d.top.Coherent) :
    d'.top.at? tgt = some node := by
  rcases Decidable.em (d.Rests node src tgt) with rests | moves
  · rw [r.top, if_pos rests]
    rcases rests with rfl | named
    · exact r.there
    · obtain ⟨other, at_, named⟩ := (Option.any_eq_true _ _).1 named
      rw [at_, coherent _ _ _ _ r.there at_ named]
  · exact r.at?_tgt moves

/-- A file or a link that is there after one has moved was somewhere before. -/
theorem leaf_back (r : Renamed d d' src tgt node) (file : node.isDir = false) {leaf : Node}
    (there : d'.top.at? l = some leaf) (kind : leaf.isDir = false) :
    ∃ l₀, d.top.at? l₀ = some leaf := by
  rcases Decidable.em (d.Rests node src tgt) with rests | moves
  · rw [r.top, if_pos rests] at there
    exact ⟨l, there⟩
  have now := r.at?_tgt moves
  by_cases below : tgt <+: l
  · -- Nothing is below the file that has moved.
    by_cases same : tgt = l
    · rw [← same, now] at there
      cases there
      exact ⟨src, r.there⟩
    · obtain ⟨es, dir⟩ := dir_above below same (by rw [there]; rfl)
      rw [now] at dir
      cases dir
      cases file
  · have face := face?_of_at? there
    rw [r.face?_eq moves, if_neg below] at face
    split at face
    · cases face
    next away =>
      obtain ⟨before, at_, same⟩ := Option.map_eq_some_iff.1 face
      have kind' : before.isDir = false := by
        by_contra isDir
        rw [isDir_iff_face.1 (by simpa using isDir)] at same
        rw [isDir_iff_face.2 same.symm] at kind
        cases kind
      rw [r.leaf at_ kind' away below] at there
      cases there
      exact ⟨l, at_⟩

theorem coherent (r : Renamed d d' src tgt node) (file : node.isDir = false)
    (coherent : d.top.Coherent) : d'.top.Coherent := by
  intro l l' a b there there' named
  obtain ⟨inode, c, m, c', m', rfl, rfl⟩ := sameFile_iff.1 named
  obtain ⟨k, before⟩ := r.leaf_back file there rfl
  obtain ⟨k', before'⟩ := r.leaf_back file there' rfl
  exact coherent k k' _ _ before before' named

/-- What depends on neither place is as it was. -/
theorem within (r : Renamed d d' src tgt node) :
    Within (eraseAll [src, tgt] d.top) d'.top := by
  have erased : eraseAll [src, tgt] d.top = eraseAll [src, tgt] d'.top := r.erased.symm
  rw [erased]
  exact within_eraseAll

end Renamed

theorem face?_above {top : Node} {f : Face} (there : top.face? l = some f) (above : loc <+: l)
    (ne : loc ≠ l) : top.face? loc = some .dir := by
  obtain ⟨sub, at_, -⟩ := Option.map_eq_some_iff.1 there
  obtain ⟨es, dir⟩ := dir_above above ne (by rw [at_]; rfl)
  exact face?_of_at? dir

/-- What is above something and no directory is the thing itself. -/
theorem eq_of_above {top : Node} {f : Face} (there : top.face? l = some f) (above : loc <+: l)
    (other : top.face? loc ≠ some .dir) : loc = l := by
  by_contra ne
  exact other (face?_above there above ne)

theorem face?_ne_dir {top : Node} (there : top.at? l = some node) (file : node.isDir = false) :
    top.face? l ≠ some .dir := by
  rw [face?, there]
  exact face?_leaf_ne_dir (l := []) file

/-- Nothing but a directory is above a directory. -/
theorem not_prefix_of_dir {top : Node} (there : top.face? l = some .dir)
    (other : top.face? loc ≠ some .dir) : ¬ loc <+: l := fun above =>
  other (eq_of_above there above other ▸ there)

theorem entryOf_ofLocation (leads : d.Leads (.ofLocation dir) dir)
    (there : d.top.face? dir = some .dir) (ne : n ≠ Name.up)
    (fits : (Path.ofLocation (dir ++ [n])).Fits) :
    d.entryOf (.ofLocation (dir ++ [n])) = .ok (dir, some n) := by
  have parent : (Path.ofLocation (dir ++ [n])).parent = .ofLocation dir := by
    simp [Path.parent, Path.ofLocation]
  have last : (Path.ofLocation (dir ++ [n])).name?.filter (· ≠ Name.up) = some n := by
    simp [Path.name?, Path.ofLocation, Option.filter, ne]
  obtain ⟨node, at_, face⟩ := Option.map_eq_some_iff.1 there
  have found : d.lookup true (.ofLocation dir) = .ok (.found dir) :=
    leads.lookup (Path.Fits.parent (p := .ofLocation dir) fits)
  rw [entryOf, parent, last]
  simp [locate, found, at_, isDir_iff_face.2 face]

theorem entrance_ofLocation (leads : d.Leads (.ofLocation dir) dir)
    (there : d.top.face? dir = some .dir) (ne : n ≠ Name.up)
    (fits : (Path.ofLocation (dir ++ [n])).Fits) :
    d.entrance (.ofLocation (dir ++ [n])) = some (dir ++ [n]) :=
  entrance_eq_some.2 ⟨dir, n, rfl, entryOf_ofLocation leads there ne fits⟩

/-- A file is an entry of a directory. -/
theorem Placed.entry (placed : d.Placed) (plain : Name.up ∉ loc) (there : d.top.at? loc = some node)
    (file : node.isDir = false) : ∃ dir n, loc = dir ++ [n] ∧ n ≠ Name.up ∧
      d.Leads (.ofLocation dir) dir ∧ d.top.face? dir = some .dir := by
  rcases List.eq_nil_or_concat' loc with rfl | ⟨dir, n, rfl⟩
  · exact absurd (congrArg some placed.top) (face?_ne_dir there file)
  · have above := face?_of_concat (face?_of_at? there)
    simp only [List.mem_append, List.mem_singleton, not_or] at plain
    exact ⟨dir, n, rfl, Ne.symm plain.2,
      leads_ofLocation placed.top plain.1 above Face.dir_ne_link, above⟩

/-- **A file can be renamed** to an entry of an existing directory that is no directory itself. -/
theorem exists_rename {sdir tdir : Location} (source : d.Leads (.ofLocation sdir) sdir)
    (target : d.Leads (.ofLocation tdir) tdir) (sface : d.top.face? sdir = some .dir)
    (tface : d.top.face? tdir = some .dir) (nproper : n ≠ Name.up) (mproper : m ≠ Name.up)
    (sfits : (Path.ofLocation (sdir ++ [n])).Fits) (tfits : (Path.ofLocation (tdir ++ [m])).Fits)
    (there : d.top.at? (sdir ++ [n]) = some node) (file : node.isDir = false)
    (free : d.top.face? (tdir ++ [m]) ≠ some .dir) :
    ∃ d', d.rename (.ofLocation (sdir ++ [n])) (.ofLocation (tdir ++ [m])) = .ok d' ∧
      Renamed d d' (sdir ++ [n]) (tdir ++ [m]) node := by
  have from_ := entryOf_ofLocation source sface nproper sfits
  have into := entryOf_ofLocation target tface mproper tfits
  have sshort := sfits.names n (List.mem_append_right _ List.mem_cons_self)
  have tshort := tfits.names m (List.mem_append_right _ List.mem_cons_self)
  have inside := not_prefix_of_dir tface (face?_ne_dir there file)
  have above := not_prefix_of_dir sface free
  have fitting : replaceError? node (d.top.at? (tdir ++ [m])) = none := by
    cases at_ : d.top.at? (tdir ++ [m]) with
    | none => rfl
    | some other =>
      cases other with
      | dir es => exact absurd (face?_of_at? at_) free
      | _ => simp [replaceError?, file]
  have moves : ∃ d', d.moveNode (sdir ++ [n]) (tdir ++ [m]) = .ok d' := by
    rw [moveNode, there]
    dsimp only
    split
    · exact ⟨_, rfl⟩
    · rw [fitting]
      exact ⟨_, rfl⟩
  obtain ⟨d', moved⟩ := moves
  have renames : d.rename (.ofLocation (sdir ++ [n])) (.ofLocation (tdir ++ [m])) = .ok d' := by
    rw [rename, if_neg (by simp [sfits.hasNull, tfits.hasNull]),
      if_neg (by simp [sfits.size, tfits.size]), from_, into]
    simp [sshort, tshort, List.isPrefixOf_iff_prefix, inside, above, moved]
  obtain ⟨src, tgt, node', named, named', r⟩ := renamed_of_rename renames
  rw [entrance_ofLocation source sface nproper sfits] at named
  rw [entrance_ofLocation target tface mproper tfits] at named'
  cases named
  cases named'
  obtain rfl : node' = node := Option.some.inj (r.there.symm.trans there)
  exact ⟨d', renames, r⟩

/-! ## The current directory -/

/-- The current directory stays where it is when what moves and what is replaced is no directory. -/
theorem Renamed.current_eq (r : Renamed d d' src tgt node) (placed : d.Placed)
    (file : node.isDir = false) (free : d.top.face? tgt ≠ some .dir) : d'.current = d.current := by
  rw [r.current]
  split
  · rfl
  · have away := not_prefix_of_dir placed.there (face?_ne_dir r.there file)
    have spared := not_prefix_of_dir placed.there free
    simp [Whereabouts.moved, Whereabouts.without, relocate, List.isPrefixOf_iff_prefix, away,
      spared]

/-- A file that moves makes no directories. -/
theorem Renamed.face?_dir (r : Renamed d d' src tgt node) (file : node.isDir = false)
    (there : d'.top.face? l = some .dir) : d.top.face? l = some .dir := by
  rcases Decidable.em (d.Rests node src tgt) with rests | moves
  · rw [r.top, if_pos rests] at there
    exact there
  · rw [r.face?_eq moves] at there
    split at there
    · exact absurd there (face?_leaf_ne_dir file)
    · split at there
      · cases there
      · exact there

theorem Renamed.placed (r : Renamed d d' src tgt node) (placed : d.Placed)
    (file : node.isDir = false) (free : d.top.face? tgt ≠ some .dir) : d'.Placed := by
  have current := r.current_eq placed file free
  refine ⟨current ▸ placed.removed, ?_, current ▸ placed.plain⟩
  rw [current, r.top]
  split
  · exact placed.there
  · next moves =>
    have faces := r.face?_eq moves (l := d.current.base)
    rw [r.top, if_neg moves] at faces
    rw [faces, if_neg (not_prefix_of_dir placed.there free),
      if_neg (not_prefix_of_dir placed.there (face?_ne_dir r.there file)), placed.there]

end Disk

end FileTags
