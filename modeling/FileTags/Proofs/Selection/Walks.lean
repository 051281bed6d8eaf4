/-
  What a walk lists.

  A walk asks of every path whether it leads to a directory.  Where the disk cannot tell, the path
  being too long for it, the walk fails; everywhere else it lists the path and, below a directory
  that is no link, what the directory holds.  Links are not followed, so that what is held lies in
  a smaller and smaller tree, whatever the links lead to.

  * `Disk.Beneath` says that a path is reached from another one through directories that are no
    links;
  * `holds_wf`: a walk ends; `walk_cases` says what it does at one path;
  * `exists_walk_iff`: a walk fails only where the disk cannot tell; `mem_walk`, `walk_sorted` and
    `walk_blocks` say what it lists, and in which order.
-/
import FileTags.Selection
import FileTags.Proofs.Subtrees
import FileTags.Proofs.Disk.Sound

namespace FileTags

open Node

/-! ## Entries of directories -/

namespace Disk

variable {d : Disk} {p q r : Path} {n : Name} {node sub : Node} {dir : Location}
  {es : List (Name × Node)} {follow : Bool}

/-- A path leads to a directory with some entries, and there is no link at it. -/
structure Opens (d : Disk) (p : Path) (es : List (Name × Node)) : Prop where
  stat : d.stat p = .ok (.dir es)
  isLink : d.isLink p = .ok false

namespace Opens

theorem unique {fs : List (Name × Node)} (opens : d.Opens p es) (opens' : d.Opens p fs) :
    es = fs :=
  Node.dir.inj (Except.ok.inj (opens.stat.symm.trans opens'.stat))

theorem isDir (opens : d.Opens p es) : d.isDir p = .ok true :=
  isDir_iff.2 ⟨.dir es, opens.stat, rfl⟩

/-- Where the entries of a directory are. -/
theorem exists_location (opens : d.Opens p es) (some_ : es ≠ []) :
    ∃ dir, d.lookup true p = .ok (.found dir) ∧ d.top.at? dir = some (.dir es) := by
  rcases lookup_of_node opens.stat with found | ⟨w, -, empty⟩
  · exact found
  · exact absurd (Node.dir.inj empty) some_

theorem nodup (opens : d.Opens p es) (proper : d.top.isProper = true) : (es.map (·.1)).Nodup := by
  by_cases none : es = []
  · rw [none]
    exact List.nodup_nil
  · obtain ⟨dir, -, at_⟩ := opens.exists_location none
    exact (isProper_dir.1 (isProper_at? proper at_).1).1

/-- What there is at an entry of a directory, if the disk finds anything there. -/
theorem child (opens : d.Opens p es) (proper : d.top.isProper = true) (there : (n, sub) ∈ es)
    (told : d.stat (p.child n) = .ok node) :
    d.lstat (p.child n) = .ok sub ∧ (sub.isLink = false → node = sub) := by
  obtain ⟨dir, found, at_⟩ := opens.exists_location (List.ne_nil_of_mem there)
  obtain ⟨nodup, plain, -⟩ := isProper_dir.1 (isProper_at? proper at_).1
  have ne : n ≠ Name.up := fun e => plain (e ▸ List.mem_map_of_mem there)
  have entry : d.top.at? (dir ++ [n]) = some sub := by
    rw [at?_concat, at_]
    exact lookup_of_mem nodup there
  obtain ⟨spot, looked⟩ : ∃ spot, d.lookup true (p.child n) = .ok spot := by
    rcases lookup_of_node told with ⟨l, looked, -⟩ | ⟨w, looked, -⟩ <;> exact ⟨_, looked⟩
  obtain ⟨null, size⟩ := usable_of_lookup looked
  obtain ⟨left, walks⟩ := lookup_child_of_found found (face?_of_at? at_) ne null size
  have short : ¬ nameLimit < n.byteSize := fun long => by
    rw [walks, travel_of_failed (e := .nameTooLong) (by rw [descend_down, if_pos long])] at looked
    cases looked
  have comes : ∀ follow, (follow = true → sub.isLink = false) →
      d.node follow (p.child n) = .ok sub := by
    intro follow plain
    have came : descend d.top follow dir [.down n] = .found (dir ++ [n]) := by
      rw [descend_down, if_neg short, face?_of_at? entry]
      cases sub with
      | link target =>
        cases follow with
        | true => exact absurd (plain rfl) (by simp [Node.isLink])
        | false => rfl
      | _ => rfl
    rw [Disk.node, walks, travel_of_found came]
    simp only [entry]
  refine ⟨comes false fun follow => absurd follow Bool.false_ne_true, fun plain => ?_⟩
  exact Except.ok.inj (told.symm.trans (comes true fun _ => plain))

end Opens

/-- Where the disk finds something, it can tell whether there is a link. -/
theorem exists_isLink (there : d.stat p = .ok node) : ∃ answer, d.isLink p = .ok answer := by
  rw [isLink, lstat, Disk.node]
  rcases lookup_follow d p with same | ⟨l, found⟩
  · rw [stat, Disk.node] at there
    rw [same, there]
    exact ⟨_, rfl⟩
  · simp only [found]
    cases d.top.at? l with
    | none => exact ⟨false, rfl⟩
    | some node => exact ⟨node.isLink, rfl⟩

/-! ## What directories hold -/

/-- A path is that of an entry of a directory that is no link. -/
def Holds (d : Disk) (p q : Path) : Prop :=
  ∃ es n, d.Opens p es ∧ n ∈ es.map (·.1) ∧ q = p.child n

/-- A path is reached from another one through directories that are no links. -/
inductive Beneath (d : Disk) : Path → Path → Prop
  | here (p : Path) : Beneath d p p
  | entry {p q r : Path} (held : d.Holds p q) (beneath : Beneath d q r) : Beneath d p r

/-- The disk can tell whether a path leads to a directory. -/
def Answers (d : Disk) (p : Path) : Prop := ∃ answer, d.isDir p = .ok answer

theorem Holds.covers (held : d.Holds p q) : p.Covers q := by
  obtain ⟨es, n, -, -, rfl⟩ := held
  exact Path.covers_child p n

theorem Beneath.covers (beneath : d.Beneath p q) : p.Covers q := by
  induction beneath with
  | here p => exact .refl p
  | entry held _ ih => exact held.covers.trans ih

theorem Beneath.trans (first : d.Beneath p q) (second : d.Beneath q r) : d.Beneath p r := by
  induction first with
  | here => exact second
  | entry held _ ih => exact .entry held (ih second)

theorem beneath_iff : d.Beneath p q ↔ q = p ∨ ∃ r, d.Holds p r ∧ d.Beneath r q := by
  constructor
  · rintro (_ | ⟨held, beneath⟩)
    · exact .inl rfl
    · exact .inr ⟨_, held, beneath⟩
  · rintro (rfl | ⟨r, held, beneath⟩)
    · exact .here _
    · exact .entry held beneath

/-- A directory in a directory is smaller. -/
theorem Opens.smaller {fs : List (Name × Node)} (opens : d.Opens p es)
    (proper : d.top.isProper = true) (there : n ∈ es.map (·.1)) (inner : d.Opens (p.child n) fs) :
    sizeOf fs < sizeOf es := by
  obtain ⟨⟨m, sub⟩, entry, rfl⟩ := List.mem_map.1 there
  obtain ⟨lstat, same⟩ := opens.child proper entry inner.stat
  have plain : sub.isLink = false := by
    have told := inner.isLink
    rw [Disk.isLink, lstat] at told
    exact Except.ok.inj told
  obtain rfl := same plain
  have size := List.sizeOf_lt_of_mem entry
  simp only [Prod.mk.sizeOf_spec, Node.dir.sizeOf_spec] at size
  omega

/-- **Walks end**: going from directories to what they hold, and following no links, one comes to
    an end. -/
theorem holds_wf (proper : d.top.isProper = true) : WellFounded fun q p => d.Holds p q := by
  have opened : ∀ k p es, d.Opens p es → sizeOf es < k → Acc (fun q p => d.Holds p q) p := by
    intro k
    induction k with
    | zero => exact fun _ _ _ none => absurd none (Nat.not_lt_zero _)
    | succ k ih =>
      refine fun p es opens size => ⟨p, fun q held => ⟨q, fun r inner => ?_⟩⟩
      obtain ⟨es', n, opens', there, rfl⟩ := held
      obtain rfl := opens.unique opens'
      obtain ⟨fs, m, opens'', rest⟩ := inner
      have smaller := opens.smaller proper there opens''
      exact (ih _ fs opens'' (by omega)).inv ⟨fs, m, opens'', rest⟩
  refine ⟨fun p => ⟨p, fun q ⟨es, n, opens, rest⟩ => ?_⟩⟩
  exact (opened _ p es opens (Nat.lt_succ_self _)).inv ⟨es, n, opens, rest⟩

/-! ## One path of a walk -/

/-- What the disk cannot tell of a path, a walk cannot list. -/
theorem walk_of_error {e : DiskError} (asked : d.isDir p = .error e) : walk d p = .error e := by
  rw [walk, asked]

theorem walk_of_closed (answers : d.Answers p) (closed : ∀ es, ¬ d.Opens p es) :
    walk d p = .ok [p] := by
  obtain ⟨answer, asked⟩ := answers
  rw [walk, asked]
  cases answer with
  | false => rfl
  | true =>
    obtain ⟨node, there, face⟩ := isDir_iff.1 asked
    obtain ⟨es, rfl⟩ := face_eq_dir.1 face
    obtain ⟨link, told⟩ := exists_isLink there
    cases link with
    | false => exact absurd ⟨there, told⟩ (closed es)
    | true => simp only [told]

theorem below_dir (opens : d.isDir p = .ok true) : below d p (.dir es) =
    (belowEntries d p es).map fun found => p :: (found.mergeSort beforeByName).flatMap (·.2) := by
  rw [below, opens]
  cases belowEntries d p es <;> rfl

theorem walk_of_opens (opens : d.Opens p es) : walk d p =
    (belowEntries d p es).map fun found => p :: (found.mergeSort beforeByName).flatMap (·.2) := by
  rw [walk, opens.isDir, opens.isLink, opens.stat]
  exact below_dir opens.isDir

/-- An entry is walked like its path. -/
theorem Opens.below (opens : d.Opens p es) (proper : d.top.isProper = true)
    (there : (n, sub) ∈ es) : below d (p.child n) sub = walk d (p.child n) := by
  cases asked : d.isDir (p.child n) with
  | error e =>
    rw [walk_of_error asked]
    cases sub <;> simp only [FileTags.below, asked] <;> rfl
  | ok answer =>
    cases answer with
    | false =>
      rw [walk, asked]
      cases sub <;> simp only [FileTags.below, asked] <;> rfl
    | true =>
      obtain ⟨node, told, face⟩ := isDir_iff.1 asked
      obtain ⟨lstat, same⟩ := opens.child proper there told
      have link : d.isLink (p.child n) = .ok sub.isLink := by rw [Disk.isLink, lstat]
      cases sub with
      | link target =>
        rw [walk, asked, link]
        simp only [FileTags.below, asked]
        rfl
      | dir fs =>
        obtain rfl := same rfl
        rw [walk_of_opens ⟨told, link⟩, below_dir asked]
      | file inode content mode =>
        obtain rfl := same rfl
        cases face
      | device =>
        obtain rfl := same rfl
        cases face

theorem mem_of_belowEntries {found : List (Name × List Path)}
    (listed : belowEntries d p es = .ok found) : found.map (·.1) = es.map (·.1) ∧
      ∀ part ∈ found, ∃ sub, (part.1, sub) ∈ es ∧ below d (p.child part.1) sub = .ok part.2 := by
  induction es generalizing found with
  | nil =>
    cases listed
    exact ⟨rfl, nofun⟩
  | cons e es ih =>
    obtain ⟨n, sub⟩ := e
    rw [belowEntries] at listed
    split at listed
    · cases listed
    · cases listed
    · next paths rest first others =>
      cases listed
      obtain ⟨names, parts⟩ := ih others
      refine ⟨congrArg (n :: ·) names, fun part there => ?_⟩
      rcases List.mem_cons.1 there with rfl | there
      · exact ⟨sub, List.mem_cons_self, first⟩
      · obtain ⟨sub', entry, listed⟩ := parts part there
        exact ⟨sub', List.mem_cons_of_mem _ entry, listed⟩

theorem exists_belowEntries_iff : (∃ found, belowEntries d p es = .ok found) ↔
    ∀ e ∈ es, ∃ paths, below d (p.child e.1) e.2 = .ok paths := by
  induction es with
  | nil => simp [belowEntries]
  | cons e es ih =>
    obtain ⟨n, sub⟩ := e
    rw [List.forall_mem_cons, ← ih, belowEntries]
    cases below d (p.child n) sub with
    | error e => simp
    | ok paths => cases belowEntries d p es <;> simp

theorem beforeByName_trans (a b c : Name × List Path) (hab : beforeByName a b = true)
    (hbc : beforeByName b c = true) : beforeByName a c = true := by
  simp only [beforeByName, decide_eq_true_eq] at hab hbc ⊢
  exact hab.trans hbc

theorem beforeByName_total (a b : Name × List Path) :
    (beforeByName a b || beforeByName b a) = true := by
  simpa only [beforeByName, Bool.or_eq_true, decide_eq_true_eq] using le_total a.1.text b.1.text

/-- **What a walk lists**: a path that is no directory to be opened by itself; a directory before
    what is below its entries, these by name. -/
theorem walk_cases (proper : d.top.isProper = true) {paths : List Path}
    (walked : walk d p = .ok paths) : d.Answers p ∧
      (((∀ es, ¬ d.Opens p es) ∧ paths = [p]) ∨
      ∃ (es : List (Name × Node)) (parts : List (Name × List Path)), d.Opens p es ∧
        (parts.map (·.1)).Perm (es.map (·.1)) ∧ (parts.Pairwise fun a b => a.1.text < b.1.text) ∧
        (∀ part ∈ parts, walk d (p.child part.1) = .ok part.2) ∧
        paths = p :: parts.flatMap (·.2)) := by
  have answers : d.Answers p := by
    cases asked : d.isDir p with
    | error e =>
      rw [walk_of_error asked] at walked
      cases walked
    | ok answer => exact ⟨answer, asked⟩
  refine ⟨answers, ?_⟩
  by_cases closed : ∀ es, ¬ d.Opens p es
  · rw [walk_of_closed answers closed] at walked
    cases walked
    exact .inl ⟨closed, rfl⟩
  · obtain ⟨es, opens⟩ := not_forall_not.1 closed
    rw [walk_of_opens opens] at walked
    obtain ⟨found, listed, rfl⟩ : ∃ found, belowEntries d p es = .ok found ∧
        p :: (found.mergeSort beforeByName).flatMap (·.2) = paths := by
      cases listed : belowEntries d p es with
      | error e => rw [listed] at walked; cases walked
      | ok found =>
        rw [listed] at walked
        cases walked
        exact ⟨found, rfl, rfl⟩
    obtain ⟨names, each⟩ := mem_of_belowEntries listed
    have perm := List.mergeSort_perm found beforeByName
    have names' : ((found.mergeSort beforeByName).map (·.1)).Perm (es.map (·.1)) :=
      names ▸ perm.map (·.1)
    refine .inr ⟨es, found.mergeSort beforeByName, opens, names', ?_, fun part there => ?_, rfl⟩
    · have sorted := List.pairwise_mergeSort beforeByName_trans beforeByName_total found
      have apart := List.pairwise_map.1 (names'.nodup_iff.2 (opens.nodup proper))
      refine (sorted.and apart).imp fun {a b} ⟨le, ne⟩ => ?_
      exact lt_of_le_of_ne (of_decide_eq_true le) fun same => ne (Name.ext same)
    · obtain ⟨sub, entry, below⟩ := each part (perm.mem_iff.1 there)
      exact (opens.below proper entry).symm.trans below

theorem exists_walk_step (proper : d.top.isProper = true) : (∃ paths, walk d p = .ok paths) ↔
    d.Answers p ∧ ∀ q, d.Holds p q → ∃ paths, walk d q = .ok paths := by
  constructor
  · rintro ⟨paths, walked⟩
    obtain ⟨answers, ⟨closed, -⟩ | ⟨es, parts, opens, names, -, each, -⟩⟩ :=
      walk_cases proper walked
    · exact ⟨answers, fun q ⟨es, n, opens, _⟩ => absurd opens (closed es)⟩
    · refine ⟨answers, ?_⟩
      rintro q ⟨es', n, opens', there, rfl⟩
      obtain rfl := opens.unique opens'
      obtain ⟨part, among, rfl⟩ := List.mem_map.1 (names.mem_iff.2 there)
      exact ⟨part.2, each part among⟩
  · rintro ⟨answers, each⟩
    by_cases closed : ∀ es, ¬ d.Opens p es
    · exact ⟨[p], walk_of_closed answers closed⟩
    · obtain ⟨es, opens⟩ := not_forall_not.1 closed
      have entries : ∀ e ∈ es, ∃ paths, below d (p.child e.1) e.2 = .ok paths := by
        intro e there
        rw [opens.below proper there]
        exact each _ ⟨es, e.1, opens, List.mem_map_of_mem there, rfl⟩
      obtain ⟨found, listed⟩ := exists_belowEntries_iff.2 entries
      rw [walk_of_opens opens, listed]
      exact ⟨_, rfl⟩

/-! ## A whole walk -/

/-- What stands in one of several lists goes on with the lists after it. -/
theorem suffix_flatMap {α β : Type} {f : α → List β} {l : List α} {b : β} {v : List β}
    (from_ : b :: v <:+ l.flatMap f) : ∃ a ∈ l, ∃ u, b :: u <:+ f a ∧ b :: u <+: b :: v := by
  induction l with
  | nil => cases List.suffix_nil.1 from_
  | cons a l ih =>
    obtain ⟨before, same⟩ := from_
    rw [List.flatMap_cons] at same
    rcases List.append_eq_append_iff.1 same with ⟨u, first, rest⟩ | ⟨u, first, rest⟩
    · cases u with
      | nil =>
        obtain ⟨a', there, found⟩ := ih ⟨[], by simpa using rest⟩
        exact ⟨a', List.mem_cons_of_mem _ there, found⟩
      | cons b' u =>
        obtain ⟨rfl, rfl⟩ := List.cons.inj rest
        exact ⟨a, List.mem_cons_self, u, ⟨before, first.symm⟩, List.prefix_append _ _⟩
    · obtain ⟨a', there, found⟩ := ih ⟨u, rest.symm⟩
      exact ⟨a', List.mem_cons_of_mem _ there, found⟩

section
variable {paths v : List Path}

/-- **A walk fails only where the disk cannot tell** of a path below whether it leads to a
    directory. -/
theorem exists_walk_iff (proper : d.top.isProper = true) :
    (∃ paths, walk d p = .ok paths) ↔ ∀ q, d.Beneath p q → d.Answers q := by
  induction p using (holds_wf proper).induction with
  | h p ih =>
    rw [exists_walk_step proper]
    constructor
    · rintro ⟨answers, each⟩ q beneath
      rcases beneath_iff.1 beneath with rfl | ⟨r, held, beneath⟩
      · exact answers
      · exact (ih r held).1 (each r held) q beneath
    · intro all
      exact ⟨all p (.here p), fun r held => (ih r held).2 fun q below => all q (.entry held below)⟩

theorem exists_walk_cons (proper : d.top.isProper = true) (walked : walk d p = .ok paths) :
    ∃ rest, paths = p :: rest := by
  obtain ⟨-, ⟨-, rfl⟩ | ⟨es, parts, -, -, -, -, rfl⟩⟩ := walk_cases proper walked
  · exact ⟨[], rfl⟩
  · exact ⟨_, rfl⟩

/-- **A walk lists what is below a path.** -/
theorem mem_walk (proper : d.top.isProper = true) (walked : walk d p = .ok paths) :
    q ∈ paths ↔ d.Beneath p q := by
  induction p using (holds_wf proper).induction generalizing paths with
  | h p ih =>
    rw [beneath_iff]
    obtain ⟨-, ⟨closed, rfl⟩ | ⟨es, parts, opens, names, -, each, rfl⟩⟩ := walk_cases proper walked
    · rw [List.mem_singleton]
      refine ⟨.inl, ?_⟩
      rintro (rfl | ⟨r, ⟨es, n, opens, -⟩, -⟩)
      · rfl
      · exact absurd opens (closed es)
    · have held : ∀ part ∈ parts, d.Holds p (p.child part.1) := fun part there =>
        ⟨es, part.1, opens, names.mem_iff.1 (List.mem_map_of_mem there), rfl⟩
      rw [List.mem_cons, List.mem_flatMap]
      refine or_congr_right ⟨?_, ?_⟩
      · rintro ⟨part, there, below⟩
        exact ⟨_, held part there, (ih _ (held part there) (each part there)).1 below⟩
      · rintro ⟨r, ⟨es', n, opens', there, rfl⟩, below⟩
        obtain rfl := opens.unique opens'
        obtain ⟨part, among, rfl⟩ := List.mem_map.1 (names.mem_iff.2 there)
        exact ⟨part, among, (ih _ (held part among) (each part among)).2 below⟩

/-- **A walk is sorted** by the components of paths: a directory stands before what is below it,
    and that by name. -/
theorem walk_sorted (proper : d.top.isProper = true) (walked : walk d p = .ok paths) :
    paths.Pairwise Path.Before := by
  induction p using (holds_wf proper).induction generalizing paths with
  | h p ih =>
    obtain ⟨-, ⟨closed, rfl⟩ | ⟨es, parts, opens, names, sorted, each, rfl⟩⟩ :=
      walk_cases proper walked
    · exact List.pairwise_singleton _ _
    · have covers : ∀ part ∈ parts, ∀ q ∈ part.2, (p.child part.1).Covers q :=
        fun part there q among => ((mem_walk proper (each part there)).1 among).covers
      refine List.pairwise_cons.2 ⟨fun q there => ?_, List.pairwise_flatMap.2 ⟨?_, ?_⟩⟩
      · obtain ⟨part, among, below⟩ := List.mem_flatMap.1 there
        exact (covers part among q below).before_child
      · intro part there
        have held : d.Holds p (p.child part.1) :=
          ⟨es, part.1, opens, names.mem_iff.1 (List.mem_map_of_mem there), rfl⟩
        exact ih _ held (each part there)
      · refine sorted.imp_of_mem fun {a b} ha hb less q hq r hr => ?_
        exact Path.Covers.before_of_lt less (covers a ha q hq) (covers b hb r hr)

/-- **What is below a listed path follows it** at once, listed as a walk from there lists it. -/
theorem walk_blocks (proper : d.top.isProper = true) (walked : walk d p = .ok paths)
    (from_ : q :: v <:+ paths) : ∃ block, walk d q = .ok block ∧ block <+: q :: v := by
  induction p using (holds_wf proper).induction generalizing paths v with
  | h p ih =>
    obtain ⟨-, ⟨closed, rfl⟩ | ⟨es, parts, opens, names, sorted, each, rfl⟩⟩ :=
      walk_cases proper walked
    · rcases List.suffix_cons_iff.1 from_ with same | none
      · cases same
        exact ⟨_, walked, List.prefix_rfl⟩
      · cases List.suffix_nil.1 none
    · rcases List.suffix_cons_iff.1 from_ with same | from_
      · cases same
        exact ⟨_, walked, List.prefix_rfl⟩
      · obtain ⟨part, there, u, from_, before⟩ := suffix_flatMap from_
        have held : d.Holds p (p.child part.1) :=
          ⟨es, part.1, opens, names.mem_iff.1 (List.mem_map_of_mem there), rfl⟩
        obtain ⟨block, walked, first⟩ := ih _ held (each part there) from_
        exact ⟨block, walked, first.trans before⟩

end

end Disk

end FileTags
