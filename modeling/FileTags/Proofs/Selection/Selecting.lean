/-
  What is selected.

  A selection takes the paths that are given, or all that is below them, and keeps each path that
  the filter accepts once, where it first occurs.  Selecting again from what has been selected
  changes nothing, not even when the paths are expanded again: a path that is kept stands, where it
  first occurs, before all that is below it.

  * `firsts` lists the members of a list that are kept, each once; `firsts_sorted` says in which
    order, and `firsts_flatMap` that they stay when each is expanded again;
  * `select_eq_ok_iff` says what is selected, `exists_select_iff` that a selection fails only where
    the disk cannot tell;
  * `select_complete`: selections are complete, without repetitions, and are selected again.
-/
import FileTags.Proofs.Selection.Walks

namespace FileTags

/-! ## First occurrences -/

/-- A beginning of a list that has all members up to one that it lacks. -/
theorem eq_of_begins {α : Type} {l before after : List α} {a : α}
    (nodup : (before ++ a :: after).Nodup) (begins : l <+: before ++ a :: after)
    (all : before ⊆ l) (lacks : a ∉ l) : l = before := by
  rcases List.prefix_or_prefix_of_prefix begins (List.prefix_append before (a :: after)) with
    shorter | ⟨rest, rfl⟩
  · have once := (List.nodup_append.1 nodup).1
    exact shorter.eq_of_length_le (once.subperm all).length_le
  · cases rest with
    | nil => exact List.append_nil before
    | cons b rest =>
      have next := (List.prefix_append_right_inj before).1 begins
      obtain ⟨rfl, -⟩ := List.cons_prefix_cons.1 next
      exact absurd (List.mem_append_right _ List.mem_cons_self) lacks

section
variable {α : Type} [DecidableEq α] {keep other : α → Bool} {l m : List α} {a : α}

/-- The members of a list that are kept, each once, where it first occurs. -/
def firsts (keep : α → Bool) (l : List α) : List α := (l.filter keep).eraseDups

theorem mem_firsts : a ∈ firsts keep l ↔ a ∈ l ∧ keep a = true := by
  rw [firsts, List.mem_eraseDups, List.mem_filter]

theorem nodup_firsts : (firsts keep l).Nodup := nodup_eraseDups _

theorem firsts_congr (same : ∀ a ∈ l, keep a = other a) : firsts keep l = firsts other l := by
  rw [firsts, firsts, List.filter_congr same]

theorem firsts_eq_nil (none : ∀ a ∈ l, keep a = false) : firsts keep l = [] := by
  rw [firsts, List.filter_eq_nil_iff.2 fun a there => by simp [none a there]]
  rfl

theorem firsts_cons_of_neg (dropped : keep a = false) : firsts keep (a :: l) = firsts keep l := by
  rw [firsts, firsts, List.filter_cons_of_neg (by simp [dropped])]

theorem firsts_cons_of_pos (kept : keep a = true) :
    firsts keep (a :: l) = a :: firsts (fun b => keep b && decide (b ≠ a)) l := by
  rw [firsts, firsts, List.filter_cons_of_pos kept, List.eraseDups_cons, List.filter_filter]
  refine congrArg (a :: List.eraseDups ·) (List.filter_congr fun b _ => ?_)
  by_cases same : b = a <;> simp [same]

/-- What comes later is kept if it has not been kept before. -/
theorem firsts_append : firsts keep (l ++ m) =
    firsts keep l ++ firsts (fun a => keep a && decide (a ∉ firsts keep l)) m := by
  rw [firsts, List.filter_append, List.eraseDups_append, ← firsts]
  refine congrArg (firsts keep l ++ List.eraseDups ·) ?_
  rw [List.removeAll, List.filter_filter]
  refine List.filter_congr fun a _ => ?_
  by_cases kept : keep a = true <;> simp [mem_firsts, kept]

theorem firsts_prefix (before : l <+: m) : firsts keep l <+: firsts keep m := by
  obtain ⟨rest, rfl⟩ := before
  rw [firsts_append]
  exact List.prefix_append _ _

/-- Members are kept in the order in which they first occur. -/
theorem firsts_sorted : (firsts keep l).Pairwise fun a b => l.idxOf a < l.idxOf b := by
  induction l generalizing keep with
  | nil => exact List.Pairwise.nil
  | cons c l ih =>
    have later : ∀ a b, a ≠ c → b ≠ c → l.idxOf a < l.idxOf b →
        (c :: l).idxOf a < (c :: l).idxOf b := by
      intro a b ha hb less
      rw [List.idxOf_cons_ne _ (Ne.symm ha), List.idxOf_cons_ne _ (Ne.symm hb)]
      exact Nat.succ_lt_succ less
    cases kept : keep c with
    | true =>
      rw [firsts_cons_of_pos kept]
      have ne : ∀ a ∈ firsts (fun b => keep b && decide (b ≠ c)) l, a ≠ c := by
        intro a there
        have both := (mem_firsts.1 there).2
        rw [Bool.and_eq_true, decide_eq_true_iff] at both
        exact both.2
      refine List.pairwise_cons.2 ⟨fun a there => ?_, ?_⟩
      · rw [List.idxOf_cons_self, List.idxOf_cons_ne _ (Ne.symm (ne a there))]
        exact Nat.succ_pos _
      · exact ih.imp_of_mem fun {a b} ha hb => later a b (ne a ha) (ne b hb)
    | false =>
      rw [firsts_cons_of_neg kept]
      have ne : ∀ a ∈ firsts keep l, a ≠ c := by
        rintro a there rfl
        exact Bool.false_ne_true (kept.symm.trans (mem_firsts.1 there).2)
      exact ih.imp_of_mem fun {a b} ha hb => later a b (ne a ha) (ne b hb)

/-- What has been kept before a member that is kept comes from what stands before it. -/
theorem firsts_split {before after : List α} (split : firsts keep l = before ++ a :: after) :
    ∃ front rest, l = front ++ a :: rest ∧ firsts keep front = before := by
  have nodup : (before ++ a :: after).Nodup := split ▸ nodup_firsts
  have once := (List.nodup_cons.1 (List.nodup_middle.1 nodup)).1
  rw [List.mem_append, not_or] at once
  have there : a ∈ firsts keep l := split ▸ List.mem_append_right _ List.mem_cons_self
  obtain ⟨among, kept⟩ := mem_firsts.1 there
  obtain ⟨front, rest, rfl, fresh⟩ := List.eq_append_cons_of_mem among
  refine ⟨front, rest, rfl, ?_⟩
  have new : a ∉ firsts keep front := fun old => fresh (mem_firsts.1 old).1
  rw [firsts_append, firsts_cons_of_pos (by simp [kept, new])] at split
  exact ((List.append_cons_inj_of_notMem once.1 once.2).1 split.symm).1.symm

/-- **What has been kept is kept again**, in the same order, when each member is replaced by a list
    that stands wherever the member stands, and that holds the lists of its members. -/
theorem firsts_flatMap {f : α → List α} (heads : ∀ a ∈ l, a ∈ f a)
    (blocks : ∀ a rest, a :: rest <:+ l → f a <+: a :: rest)
    (nested : ∀ a ∈ l, ∀ b ∈ f a, ∀ c ∈ f b, c ∈ f a) :
    firsts keep ((firsts keep l).flatMap f) = firsts keep l := by
  have holds : ∀ before, before ⊆ firsts keep l → before ⊆ firsts keep (before.flatMap f) := by
    intro before among a there
    obtain ⟨member, kept⟩ := mem_firsts.1 (among there)
    exact mem_firsts.2 ⟨List.mem_flatMap.2 ⟨a, there, heads a member⟩, kept⟩
  -- The induction is on how many of the members have been replaced.
  have begins : ∀ before after, firsts keep l = before ++ after →
      firsts keep (before.flatMap f) <+: firsts keep l := by
    intro before
    induction before using List.reverseRecOn with
    | nil => exact fun _ _ => List.nil_prefix
    | append_singleton before a ih =>
      intro after split
      rw [List.append_assoc, List.singleton_append] at split
      have ih := ih _ split
      rw [List.flatMap_append, List.flatMap_singleton, firsts_append]
      by_cases old : a ∈ before.flatMap f
      · obtain ⟨b, there, inner⟩ := List.mem_flatMap.1 old
        have among : b ∈ l := (mem_firsts.1 (split ▸ List.mem_append_left _ there)).1
        have again : ∀ c ∈ f a, c ∈ before.flatMap f := fun c member =>
          List.mem_flatMap.2 ⟨b, there, nested b among a inner c member⟩
        have none : firsts (fun c => keep c && decide (c ∉ firsts keep (before.flatMap f))) (f a) =
            [] := firsts_eq_nil fun c member => by
          by_cases kept : keep c = true <;> simp [mem_firsts, kept, again c member]
        rw [none, List.append_nil]
        exact ih
      · have among : before ⊆ firsts keep l := split ▸ List.subset_append_left _ _
        have same : firsts keep (before.flatMap f) = before :=
          eq_of_begins (split ▸ nodup_firsts) (split ▸ ih) (holds before among)
            fun there => old (mem_firsts.1 there).1
        obtain ⟨front, rest, rfl, kept⟩ := firsts_split split
        obtain ⟨more, block⟩ := blocks a rest (List.suffix_append _ _)
        rw [same, ← kept, ← firsts_append, ← block, ← List.append_assoc]
        exact firsts_prefix (List.prefix_append _ _)
  have all := begins (firsts keep l) [] (List.append_nil _).symm
  exact all.eq_of_length_le (nodup_firsts.subperm (holds _ (List.Subset.refl _))).length_le

end

/-! ## One selection -/

section
variable {accepts : Path → Except DiskError Bool} {seen paths selected : List Path}

/-- A selection asks about every path that it has not kept before, and keeps the accepted ones. -/
theorem acceptedOnce_eq_ok_iff : acceptedOnce accepts seen paths = .ok selected ↔
    (∀ p ∈ paths, p ∉ seen → ∃ answer, accepts p = .ok answer) ∧
      selected = firsts (fun p => decide (accepts p = .ok true) && decide (p ∉ seen)) paths := by
  induction paths generalizing seen selected with
  | nil => simp [acceptedOnce, firsts, eq_comm]
  | cons p paths ih =>
    rw [acceptedOnce, List.forall_mem_cons]
    by_cases old : p ∈ seen
    · rw [if_pos old, ih, firsts_cons_of_neg (by simp [old])]
      simp [old]
    · rw [if_neg old]
      cases asked : accepts p with
      | error e => simp [old]
      | ok answer =>
        cases answer with
        | false =>
          rw [firsts_cons_of_neg (by simp [asked])]
          simp [ih]
        | true =>
          have keeps : firsts (fun q => decide (accepts q = .ok true) && decide (q ∉ seen) &&
              decide (q ≠ p)) paths =
              firsts (fun q => decide (accepts q = .ok true) && decide (q ∉ p :: seen)) paths :=
            firsts_congr fun q _ => by
              by_cases same : q = p <;> simp [same]
          have asks : (∀ q ∈ paths, q ∉ p :: seen → ∃ answer, accepts q = .ok answer) ↔
              ∀ q ∈ paths, q ∉ seen → ∃ answer, accepts q = .ok answer := by
            refine forall₂_congr fun q _ => ⟨fun told fresh => ?_, fun told fresh => ?_⟩
            · by_cases same : q = p
              · exact ⟨true, same ▸ asked⟩
              · exact told (by simp [same, fresh])
            · exact told fun older => fresh (List.mem_cons_of_mem p older)
          rw [firsts_cons_of_pos (by simp [asked, old]), keeps]
          cases rest : acceptedOnce accepts (p :: seen) paths with
          | error e =>
            refine ⟨nofun, fun ⟨⟨_, told⟩, _⟩ => ?_⟩
            have kept := ih.2 ⟨asks.2 told, rfl⟩
            rw [rest] at kept
            cases kept
          | ok later =>
            obtain ⟨told, rfl⟩ := ih.1 rest
            have first : ∃ answer, (Except.ok true : Except DiskError Bool) = .ok answer :=
              ⟨true, rfl⟩
            constructor
            · intro same
              cases same
              exact ⟨⟨fun _ => first, asks.1 told⟩, rfl⟩
            · rintro ⟨-, rfl⟩
              rfl

end

namespace Disk

variable {d : Disk} {options : SelectOptions} {given expanded selected : List Path}
  {p q r : Path}

/-- A path stands for another one: for itself, or for all that is below it. -/
def StandsFor (d : Disk) (recursive : Bool) (p q : Path) : Prop :=
  if recursive then d.Beneath p q else q = p

/-- What a selection looks at: all that the given paths stand for. -/
def Offers (d : Disk) (recursive : Bool) (given : List Path) (p : Path) : Prop :=
  ∃ start ∈ given, d.StandsFor recursive start p

theorem StandsFor.refl (recursive : Bool) (p : Path) : d.StandsFor recursive p p := by
  cases recursive with
  | false => exact rfl
  | true => exact Beneath.here p

theorem StandsFor.trans {recursive : Bool} (first : d.StandsFor recursive p q)
    (second : d.StandsFor recursive q r) : d.StandsFor recursive p r := by
  cases recursive with
  | false => exact Eq.trans second first
  | true => exact Beneath.trans first second

/-- The paths that a path stands for, as far as the disk can tell. -/
def expansion (d : Disk) (recursive : Bool) (p : Path) : List Path :=
  if recursive then (walk d p).toOption.getD [] else [p]

theorem expansion_of_walk {paths : List Path} (walked : walk d p = .ok paths) :
    d.expansion true p = paths := by
  rw [expansion, if_pos rfl, walked]
  rfl

theorem mapM_walk_eq_ok_iff {lists : List (List Path)} : given.mapM (walk d) = .ok lists ↔
    (∀ p ∈ given, ∃ paths, walk d p = .ok paths) ∧ lists = given.map (d.expansion true) := by
  induction given generalizing lists with
  | nil => simp [pure, Except.pure, eq_comm]
  | cons p given ih =>
    rw [List.mapM_cons, List.forall_mem_cons, List.map_cons]
    cases walked : walk d p with
    | error e => simp [bind, Except.bind]
    | ok paths =>
      rw [expansion_of_walk walked]
      cases later : given.mapM (walk d) with
      | error e =>
        have none : ¬ ∀ p ∈ given, ∃ paths, walk d p = .ok paths := fun each => by
          rw [ih.2 ⟨each, rfl⟩] at later
          cases later
        simp [bind, Except.bind, none]
      | ok lists' =>
        obtain ⟨each, rfl⟩ := ih.1 later
        simp only [bind, Except.bind, pure, Except.pure, Except.ok.injEq]
        exact ⟨fun same => ⟨⟨⟨paths, rfl⟩, each⟩, same.symm⟩, fun both => both.2.symm⟩

theorem expandPaths_eq_ok_iff {recursive : Bool} : expandPaths d recursive given = .ok expanded ↔
    (recursive = true → ∀ p ∈ given, ∃ paths, walk d p = .ok paths) ∧
      expanded = given.flatMap (d.expansion recursive) := by
  cases recursive with
  | false =>
    have self : given.flatMap (d.expansion false) = given := List.flatMap_singleton' given
    rw [self, expandPaths, if_neg Bool.false_ne_true, Except.ok.injEq, eq_comm]
    exact ⟨fun same => ⟨nofun, same⟩, fun both => both.2⟩
  | true =>
    rw [expandPaths, if_pos rfl, List.flatMap_def]
    cases walked : given.mapM (walk d) with
    | error e =>
      have none : ¬ ∀ p ∈ given, ∃ paths, walk d p = .ok paths := fun each => by
        rw [mapM_walk_eq_ok_iff.2 ⟨each, rfl⟩] at walked
        cases walked
      exact ⟨nofun, fun both => absurd (both.1 rfl) none⟩
    | ok lists =>
      obtain ⟨each, rfl⟩ := mapM_walk_eq_ok_iff.1 walked
      rw [Except.map, Except.ok.injEq, eq_comm]
      exact ⟨fun same => ⟨fun _ => each, same⟩, fun both => both.2⟩

/-- Where the disk can tell, a path stands for itself, or for what is below it. -/
theorem mem_expansion {recursive : Bool} (proper : d.top.isProper = true)
    (told : recursive = true → ∃ paths, walk d p = .ok paths) :
    q ∈ d.expansion recursive p ↔ d.StandsFor recursive p q := by
  cases recursive with
  | false => exact List.mem_singleton
  | true =>
    obtain ⟨paths, walked⟩ := told rfl
    rw [expansion_of_walk walked]
    exact mem_walk proper walked

/-- A selection can tell of a path that is not asked about, and where the disk can tell. -/
theorem exists_accepts_iff {kind : KindFilter} :
    (∃ answer, kind.accepts d p = .ok answer) ↔ (kind ≠ .all → d.Answers p) := by
  cases kind with
  | all => exact ⟨fun _ ne => absurd rfl ne, fun _ => ⟨true, rfl⟩⟩
  | files =>
    simp only [KindFilter.accepts, Answers]
    cases d.isDir p <;> simp [Except.map]
  | folders => simp [KindFilter.accepts, Answers]

/-! ## What is selected -/

/-- **What is selected**: what is accepted of the paths that are looked at, each once. -/
theorem select_eq_ok_iff : select d options given = .ok selected ↔
    ∃ expanded, expandPaths d options.recursive given = .ok expanded ∧
      (∀ p ∈ expanded, options.filter ≠ .all → d.Answers p) ∧
      selected = firsts (fun p => decide (options.filter.accepts d p = .ok true)) expanded := by
  rw [select]
  cases expandPaths d options.recursive given with
  | error e => simp
  | ok expanded =>
    simp only [acceptedOnce_eq_ok_iff, List.not_mem_nil, not_false_eq_true, forall_const,
      exists_accepts_iff, decide_true, Bool.and_true, Except.ok.injEq, exists_eq_left']

section
variable {recursive : Bool}

theorem mem_expandPaths (proper : d.top.isProper = true)
    (expands : expandPaths d recursive given = .ok expanded) :
    p ∈ expanded ↔ d.Offers recursive given p := by
  obtain ⟨told, rfl⟩ := expandPaths_eq_ok_iff.1 expands
  rw [List.mem_flatMap]
  exact exists_congr fun start => and_congr_right fun there =>
    mem_expansion proper fun deep => told deep start there

/-- What is looked at can be looked at again. -/
theorem exists_walk_of_mem (proper : d.top.isProper = true)
    (expands : expandPaths d recursive given = .ok expanded) (there : p ∈ expanded)
    (deep : recursive = true) : ∃ paths, walk d p = .ok paths := by
  subst deep
  obtain ⟨start, among, beneath⟩ := (mem_expandPaths proper expands).1 there
  have walked := (expandPaths_eq_ok_iff.1 expands).1 rfl start among
  exact (exists_walk_iff proper).2 fun q below =>
    (exists_walk_iff proper).1 walked q (Beneath.trans beneath below)

/-- Wherever a path is looked at, all that it stands for follows. -/
theorem expansion_prefix (proper : d.top.isProper = true)
    (expands : expandPaths d recursive given = .ok expanded) {rest : List Path}
    (from_ : p :: rest <:+ expanded) : d.expansion recursive p <+: p :: rest := by
  obtain ⟨told, rfl⟩ := expandPaths_eq_ok_iff.1 expands
  obtain ⟨start, there, u, inner, before⟩ := suffix_flatMap from_
  refine List.IsPrefix.trans ?_ before
  cases recursive with
  | false =>
    rw [expansion, if_neg Bool.false_ne_true]
    exact List.cons_prefix_cons.2 ⟨rfl, List.nil_prefix⟩
  | true =>
    obtain ⟨paths, walked⟩ := told rfl start there
    rw [expansion_of_walk walked] at inner
    obtain ⟨block, walked', first⟩ := walk_blocks proper walked inner
    rw [expansion_of_walk walked']
    exact first

end

/-- **A selection fails only where the disk cannot tell** of a path that it asks about whether it
    leads to a directory. -/
theorem exists_select_iff (proper : d.top.isProper = true) :
    (∃ selected, select d options given = .ok selected) ↔
      (options.recursive = true ∨ options.filter ≠ .all →
        ∀ p, d.Offers options.recursive given p → d.Answers p) := by
  constructor
  · rintro ⟨selected, selects⟩ asked p offered
    obtain ⟨expanded, expands, answers, -⟩ := select_eq_ok_iff.1 selects
    have there := (mem_expandPaths proper expands).2 offered
    rcases asked with deep | kind
    · have walked := exists_walk_of_mem proper expands there deep
      exact (exists_walk_iff proper).1 walked p (.here p)
    · exact answers p there kind
  · intro answers
    have told : options.recursive = true → ∀ p ∈ given, ∃ paths, walk d p = .ok paths := by
      intro deep p there
      refine (exists_walk_iff proper).2 fun q below => answers (.inl deep) q ⟨p, there, ?_⟩
      rw [deep]
      exact below
    have expands := expandPaths_eq_ok_iff.2 ⟨told, rfl⟩
    refine ⟨_, select_eq_ok_iff.2 ⟨_, expands, fun p there kind => ?_, rfl⟩⟩
    exact answers (.inr kind) p ((mem_expandPaths proper expands).1 there)

/-- **What has been selected is selected again.** -/
theorem select_again (proper : d.top.isProper = true)
    (selects : select d options given = .ok selected) :
    select d options selected = .ok selected := by
  obtain ⟨expanded, expands, answers, rfl⟩ := select_eq_ok_iff.1 selects
  have told : ∀ p ∈ expanded, options.recursive = true → ∃ paths, walk d p = .ok paths :=
    fun p there => exists_walk_of_mem proper expands there
  have inner : ∀ p ∈ expanded, ∀ q ∈ d.expansion options.recursive p, q ∈ expanded := by
    intro p there q below
    obtain ⟨start, among, stands⟩ := (mem_expandPaths proper expands).1 there
    have stands' := stands.trans ((mem_expansion proper (told p there)).1 below)
    exact (mem_expandPaths proper expands).2 ⟨start, among, stands'⟩
  have heads : ∀ p ∈ expanded, p ∈ d.expansion options.recursive p :=
    fun p there => (mem_expansion proper (told p there)).2 (.refl _ p)
  have nested : ∀ p ∈ expanded, ∀ q ∈ d.expansion options.recursive p,
      ∀ r ∈ d.expansion options.recursive q, r ∈ d.expansion options.recursive p := by
    intro p there q hq r hr
    have hq' := (mem_expansion proper (told p there)).1 hq
    have hr' := (mem_expansion proper (told q (inner p there q hq))).1 hr
    exact (mem_expansion proper (told p there)).2 (hq'.trans hr')
  refine select_eq_ok_iff.2 ⟨_, expandPaths_eq_ok_iff.2 ⟨fun deep p there => ?_, rfl⟩, ?_, ?_⟩
  · exact told p (mem_firsts.1 there).1 deep
  · intro q there kind
    obtain ⟨p, kept, below⟩ := List.mem_flatMap.1 there
    exact answers q (inner p (mem_firsts.1 kept).1 q below) kind
  · exact (firsts_flatMap heads (fun p rest => expansion_prefix proper expands) nested).symm

end Disk

/-- Members of a sorted list stand in their order. -/
theorem idxOf_lt_of_pairwise {α : Type} [DecidableEq α] {R : α → α → Prop} {l : List α} {a b : α}
    (sorted : l.Pairwise R) (asymm : ∀ {a b}, R a b → ¬ R b a) (ha : a ∈ l) (hb : b ∈ l)
    (less : R a b) : l.idxOf a < l.idxOf b := by
  have hi : l.idxOf a < l.length := List.idxOf_lt_length_iff.2 ha
  have hj : l.idxOf b < l.length := List.idxOf_lt_length_iff.2 hb
  refine Nat.lt_of_not_le fun le => ?_
  rcases Nat.lt_or_eq_of_le le with before | same
  · have order := List.pairwise_iff_getElem.1 sorted _ _ hj hi before
    rw [List.getElem_idxOf, List.getElem_idxOf] at order
    exact asymm less order
  · obtain rfl : b = a := (List.idxOf_inj hb).1 same
    exact asymm less less

/-- **Selections are complete and without repetitions.**  A walk comes to an end wherever the disk
    can tell of each path below whether it leads to a directory.  It lists what is reached through
    directories that are no links, each path once, a directory right before what is below it, and
    the entries of a directory by name.  A selection keeps what the filter accepts, each path once,
    in the order of first occurrences, and keeps the same when it is made again from there. -/
theorem select_complete {d : Disk} (proper : d.top.isProper = true) (options : SelectOptions)
    (given : List Path) :
    (∀ start, (∃ paths, walk d start = .ok paths) ↔ ∀ p, d.Beneath start p → d.Answers p) ∧
    (∀ start paths, walk d start = .ok paths → paths.Nodup ∧
      (∀ p, p ∈ paths ↔ d.Beneath start p) ∧
      (∀ before p after, paths = before ++ p :: after →
        ∃ below, walk d p = .ok (p :: below) ∧ below <+: after) ∧
      ∀ (p : Path) (n m : Name), p.child n ∈ paths → p.child m ∈ paths →
        n.text < m.text → paths.idxOf (p.child n) < paths.idxOf (p.child m)) ∧
    ((∃ selected, select d options given = .ok selected) ↔
      (options.recursive = true ∨ options.filter ≠ .all →
        ∀ p, d.Offers options.recursive given p → d.Answers p)) ∧
    ∀ selected, select d options given = .ok selected →
      ∃ expanded, expandPaths d options.recursive given = .ok expanded ∧
        (∀ p, p ∈ expanded ↔ d.Offers options.recursive given p) ∧ selected.Nodup ∧
        (∀ p, p ∈ selected ↔ p ∈ expanded ∧ options.filter.accepts d p = .ok true) ∧
        (selected.Pairwise fun p q => expanded.idxOf p < expanded.idxOf q) ∧
        select d options selected = .ok selected := by
  refine ⟨fun start => Disk.exists_walk_iff proper, fun start paths walked => ?_,
    Disk.exists_select_iff proper, fun selected selects => ?_⟩
  · have sorted := Disk.walk_sorted proper walked
    refine ⟨sorted.imp fun before => ?_, fun p => Disk.mem_walk proper walked, ?_, ?_⟩
    · rintro rfl
      exact before.asymm before
    · rintro before p after rfl
      obtain ⟨block, walked', first⟩ :=
        Disk.walk_blocks proper walked (List.suffix_append before (p :: after))
      obtain ⟨below, rfl⟩ := Disk.exists_walk_cons proper walked'
      exact ⟨below, walked', (List.cons_prefix_cons.1 first).2⟩
    · intro p n m hn hm less
      exact idxOf_lt_of_pairwise sorted Path.Before.asymm hn hm
        (Path.Covers.before_of_lt less (.refl _) (.refl _))
  · obtain ⟨expanded, expands, -, kept⟩ := Disk.select_eq_ok_iff.1 selects
    have again := Disk.select_again proper selects
    rw [kept] at again ⊢
    refine ⟨expanded, expands, fun p => Disk.mem_expandPaths proper expands, nodup_firsts, ?_,
      firsts_sorted, again⟩
    intro p
    rw [mem_firsts, decide_eq_true_iff]

/-- A link to its own directory, and a path that is given with the directory it is in. -/
theorem select_complete_loop :
    let file : Node := .file ⟨0⟩ .empty 420
    let entries : List (Name × Node) := [(⟨"a", by decide⟩, file), (⟨"l", by decide⟩, .link ".")]
    let d : Disk := ⟨.dir [(⟨"d", by decide⟩, .dir entries)], ⟨[], 0⟩, ⟨1⟩⟩
    let options : SelectOptions := ⟨true, .all⟩
    let selected : List Path := [.ofString "d/a", .ofString "d", .ofString "d/l"]
    d.top.isProper = true ∧
      select d options [.ofString "d/a", .ofString "d"] = .ok selected ∧ selected.Nodup ∧
      select d options selected = .ok selected := by
  intro file entries d options selected
  have proper : d.top.isProper = true := rfl
  have opens : d.Opens (.ofString "d") entries := ⟨by rfl, by rfl⟩
  have inner : walk d (.ofString "d") = .ok [.ofString "d", .ofString "d/a", .ofString "d/l"] := by
    have found : belowEntries d (.ofString "d") entries = .ok
        [(⟨"a", by decide⟩, [.ofString "d/a"]), (⟨"l", by decide⟩, [.ofString "d/l"])] := by rfl
    rw [Disk.walk_of_opens opens, found, Except.map, List.mergeSort_of_pairwise (by decide)]
    rfl
  have leaf : walk d (.ofString "d/a") = .ok [.ofString "d/a"] := by rfl
  have selects : select d options [.ofString "d/a", .ofString "d"] = .ok selected := by
    rw [select, expandPaths, if_pos rfl, List.mapM_cons, leaf, List.mapM_cons, inner]
    rfl
  obtain ⟨-, -, -, spec⟩ := select_complete proper options [.ofString "d/a", .ofString "d"]
  obtain ⟨expanded, -, -, nodup, -, -, again⟩ := spec selected selects
  exact ⟨proper, selects, nodup, again⟩

/-- **A walk fails at a link to a name that is too long**, although the link would only be
    listed. -/
theorem walk_long_link :
    let a : Name := ⟨"a", by decide⟩
    let d : Disk := ⟨.dir [(a, .link (String.ofList (List.replicate 300 'n')))], ⟨[], 0⟩, ⟨0⟩⟩
    d.top.isProper = true ∧ d.Beneath .root (Path.root.child a) ∧
      d.isLink (Path.root.child a) = .ok true ∧ walk d .root = .error .nameTooLong ∧
      select d ⟨true, .all⟩ [.root] = .error .nameTooLong := by
  obtain ⟨long, text, above, ne⟩ := exists_long_name
  rw [← text]
  intro a d
  have opens : d.Opens .root [(a, .link long.text)] := ⟨by rfl, by rfl⟩
  have asked : d.isDir (Path.root.child a) = .error .nameTooLong := by
    rw [Disk.isDir, Disk.leadsTo, Disk.stat_long_link ne above]
    rfl
  have walked : walk d .root = .error .nameTooLong := by
    have entry : below d (Path.root.child a) (.link long.text) = .error .nameTooLong := by
      rw [below, asked]
      · rfl
      · rintro _ ⟨⟩
    rw [Disk.walk_of_opens opens, belowEntries, entry]
    rfl
  have held : d.Holds .root (Path.root.child a) := ⟨_, a, opens, List.mem_cons_self, rfl⟩
  have link : d.isLink (Path.root.child a) = .ok true := by
    have came : descend d.top false [] [.down a] = .found [a] := rfl
    have found : d.lookup false (Path.root.child a) = .ok (.found [a]) := by
      rw [Disk.lookup, if_neg (by decide), if_neg (by decide)]
      exact travel_of_found came
    rw [Disk.isLink, Disk.lstat, Disk.node, found]
    rfl
  refine ⟨rfl, .entry held (.here _), link, walked, ?_⟩
  rw [select, expandPaths, if_pos rfl, List.mapM_cons, walked]
  rfl

end FileTags
