/-
  Databases are found from below.

  The database of a directory is the one in the nearest directory at or above it that has one.  The
  search asks one directory after another, from below; it stops where the disk refuses to tell, even
  if there is a database further up.

  * `HasDatabase` says that a directory has a database, `Untold` that the disk refuses to tell;
  * `Nearest` says which directory is the nearest one, and `Nearest.unique` that there is only one;
  * `findDatabase_of_nearest`, `findDatabase_notFound_iff`: what comes of the search;
  * `Database.create_found`: a database that has been created can be loaded, is not created again,
    and is found from all that is below it; in `create_found_long_link` it is not.
-/
import FileTags.Proofs.Database.Founding
import FileTags.Proofs.Subtrees

namespace FileTags

open Node Disk

/-! ## What a disk tells -/

namespace Disk

variable {d : Disk} {p : Path} {follow : Bool} {e : DiskError}

/-- A path is refused only if there is nothing, or if a name or a path is too long. -/
theorem stat_failed (failed : d.stat p = .error e) : e.isMiss = true ∨ e = .nameTooLong := by
  rw [stat, Disk.node] at failed
  split at failed
  next looked =>
    cases failed
    rw [lookup] at looked
    split at looked
    · cases looked
      exact .inl rfl
    split at looked
    · cases looked
      exact .inr rfl
    dsimp only at looked
    split at looked
    next climbed =>
      cases looked
      exact (climb_failed climbed).isMiss_or
    · exact (travel_failed looked).isMiss_or
    · cases looked
  · cases failed
    exact .inl rfl
  · cases failed
  · split at failed
    · cases failed
      exact .inl rfl
    · cases failed

end Disk

/-! ## The nearest database -/

/-- A directory has a database: there is a database directory in it. -/
def HasDatabase (d : Disk) (dir : Path) : Prop :=
  ∃ entries, d.stat (dir.child databaseName) = .ok (.dir entries)

/-- The disk refuses to tell whether a directory has a database: a name or a path is too long. -/
def Untold (d : Disk) (dir : Path) : Prop :=
  d.stat (dir.child databaseName) = .error .nameTooLong

/-- The nearest directory at or above `p` that has a database. -/
structure Nearest (d : Disk) (p a : Path) : Prop where
  covers : a.Covers p
  has : HasDatabase d a
  none_below : ∀ b, a.Covers b → b.Covers p → b ≠ a → ¬ HasDatabase d b

/-- The disk tells of every directory from `p` up to `a` whether it has a database. -/
def ToldUpTo (d : Disk) (p a : Path) : Prop := ∀ b, a.Covers b → b.Covers p → ¬ Untold d b

section
variable {d : Disk} {p q a b start s t dir : Path} {names : List Name} {n : Name}

theorem HasDatabase.told (has : HasDatabase d dir) : ¬ Untold d dir := by
  obtain ⟨entries, found⟩ := has
  intro untold
  cases found.symm.trans untold

theorem containsDatabase_of_has (has : HasDatabase d dir) : containsDatabase d dir = .ok true := by
  obtain ⟨entries, found⟩ := has
  rw [containsDatabase, Disk.isDir, leadsTo, found]
  rfl

theorem hasDatabase_iff : HasDatabase d dir ↔ containsDatabase d dir = .ok true := by
  refine ⟨containsDatabase_of_has, fun contains => ?_⟩
  rw [containsDatabase] at contains
  cases asked : d.isDir (dir.child databaseName) with
  | error e => rw [asked] at contains; cases contains
  | ok answer =>
    rw [asked] at contains
    cases contains
    obtain ⟨node, found, face⟩ := isDir_iff.1 asked
    obtain ⟨entries, rfl⟩ := face_eq_dir.1 face
    exact ⟨entries, found⟩

instance (d : Disk) (dir : Path) : Decidable (HasDatabase d dir) :=
  decidable_of_iff _ hasDatabase_iff.symm

theorem containsDatabase_of_untold (untold : Untold d dir) :
    containsDatabase d dir = .error (.disk .nameTooLong) := by
  rw [containsDatabase, Disk.isDir, leadsTo, untold]
  rfl

theorem containsDatabase_of_not (none : ¬ HasDatabase d dir) (told : ¬ Untold d dir) :
    containsDatabase d dir = .ok false := by
  rw [containsDatabase, Disk.isDir, leadsTo]
  cases found : d.stat (dir.child databaseName) with
  | ok node =>
    cases node with
    | dir entries => exact absurd ⟨entries, found⟩ none
    | _ => rfl
  | error e =>
    rcases stat_failed found with miss | rfl
    · simp only [miss, if_true]
      rfl
    · exact absurd found told

theorem Path.Covers.antisymm (hpq : p.Covers q) (hqp : q.Covers p) : p = q := by
  have names := hpq.2.eq_of_length (Nat.le_antisymm hpq.2.length_le hqp.2.length_le)
  exact congrArg₂ Path.mk hqp.1 names

/-- Of two directories above another one, one is above the other. -/
theorem Path.Covers.total (ha : a.Covers p) (hb : b.Covers p) : a.Covers b ∨ b.Covers a := by
  have anchors := ha.1.symm.trans hb.1
  rcases List.prefix_or_prefix_of_prefix ha.2 hb.2 with below | above
  · exact .inl ⟨anchors.symm, below⟩
  · exact .inr ⟨anchors, above⟩

theorem covers_child_iff : a.Covers (p.child n) ↔ a = p.child n ∨ a.Covers p := by
  constructor
  · rintro ⟨anchors, below⟩
    rcases List.prefix_concat_iff.1 below with whole | below
    · exact .inl (congrArg₂ Path.mk anchors.symm whole)
    · exact .inr ⟨anchors, below⟩
  · rintro (rfl | below)
    · exact .refl _
    · exact below.trans (Path.covers_child p n)

theorem Founded.hasDatabase {loc : Location}
    (founded : Founded d dir a (loc ++ [databaseName])) (top : d.top.face = .dir) :
    HasDatabase d (.ofLocation loc) := by
  obtain ⟨leads, fits⟩ := founded.leads top
  obtain ⟨node, at_, face⟩ := Option.map_eq_some_iff.1 founded.there
  obtain ⟨entries, rfl⟩ := face_eq_dir.1 face
  exact ⟨entries, stat_of_found (leads.lookup fits) at_⟩

/-- **There is one nearest database** only. -/
theorem Nearest.unique (nearest : Nearest d p a) (nearest' : Nearest d p b) : a = b := by
  by_contra ne
  rcases nearest.covers.total nearest'.covers with below | above
  · exact nearest.none_below b below nearest'.covers (Ne.symm ne) nearest'.has
  · exact nearest'.none_below a above nearest.covers ne nearest.has

/-- It is the nearest one for all that is between as well. -/
theorem Nearest.between (nearest : Nearest d p a) (above : a.Covers q) (below : q.Covers p) :
    Nearest d q a :=
  ⟨above, nearest.has, fun b hab hbq => nearest.none_below b hab (hbq.trans below)⟩

/-- Below a directory with a database there is a nearest one, which is not above it. -/
theorem exists_nearest (covers : a.Covers p) (has : HasDatabase d a) :
    ∃ b, Nearest d p b ∧ a.Covers b := by
  obtain ⟨anchors, rest, names⟩ := covers
  obtain rfl : p = ⟨a.anchor, a.names ++ rest⟩ := by rw [← anchors, names]
  clear anchors names
  induction rest using List.reverseRecOn with
  | nil =>
    rw [List.append_nil]
    exact ⟨a, ⟨.refl a, has, fun b hab hba ne => absurd (hba.antisymm hab) ne⟩, .refl a⟩
  | append_singleton rest n ih =>
    rw [← List.append_assoc]
    obtain ⟨b, nearest, above⟩ := ih
    by_cases here : HasDatabase d ⟨a.anchor, a.names ++ rest ++ [n]⟩
    · refine ⟨_, ⟨.refl _, here, fun b hab hba ne => absurd (hba.antisymm hab) ne⟩, rfl, ?_⟩
      exact (List.prefix_append a.names rest).trans (List.prefix_append _ [n])
    · have step := Path.covers_child ⟨a.anchor, a.names ++ rest⟩ n
      refine ⟨b, ⟨nearest.covers.trans step, nearest.has, fun c hbc hcp ne => ?_⟩, above⟩
      rcases (covers_child_iff (p := ⟨a.anchor, a.names ++ rest⟩)).1 hcp with rfl | below
      · exact here
      · exact nearest.none_below c hbc below ne

/-! ## Searching -/

/-- The nearest directory at or above `p` of which the disk does not say that it has no database. -/
structure Stops (d : Disk) (p a : Path) : Prop where
  covers : a.Covers p
  stops : HasDatabase d a ∨ Untold d a
  on : ∀ b, a.Covers b → b.Covers p → b ≠ a → ¬ HasDatabase d b ∧ ¬ Untold d b

/-- What the search finds at the directory where it stops. -/
def Verdict (d : Disk) (a : Path) (result : Except Error Path) : Prop :=
  (HasDatabase d a ∧ result = .ok (a.child databaseName)) ∨
    (Untold d a ∧ result = .error (.disk .nameTooLong))

theorem findFrom_nil : findFrom d start [] =
    match containsDatabase d (.ofLocation []) with
    | .error e => .error e
    | .ok true => .ok ((Path.ofLocation []).child databaseName)
    | .ok false => .error (.databaseNotFound start) := rfl

theorem findFrom_concat : findFrom d start (names ++ [n]).reverse =
    match containsDatabase d (.ofLocation (names ++ [n])) with
    | .error e => .error e
    | .ok true => .ok ((Path.ofLocation (names ++ [n])).child databaseName)
    | .ok false => findFrom d start names.reverse := by
  have below : (names ++ [n]).reverse = n :: names.reverse := by
    rw [List.reverse_append, List.reverse_singleton, List.singleton_append]
  have back : names ++ [n] = (n :: names.reverse).reverse := by
    rw [← below, List.reverse_reverse]
  rw [below, back]
  rfl

theorem Stops.here (stops : HasDatabase d p ∨ Untold d p) : Stops d p p :=
  ⟨.refl p, stops, fun _ above below ne => absurd (below.antisymm above) ne⟩

/-- The search ends where it begins, if it stops there. -/
theorem verdict_of_stops
    (stops : HasDatabase d (.ofLocation names) ∨ Untold d (.ofLocation names)) :
    Verdict d (.ofLocation names) (findFrom d start names.reverse) := by
  rcases stops with has | untold
  · refine .inl ⟨has, ?_⟩
    have asked := containsDatabase_of_has has
    induction names using List.reverseRecOn with
    | nil => rw [List.reverse_nil, findFrom_nil, asked]
    | append_singleton names n _ => rw [findFrom_concat, asked]
  · refine .inr ⟨untold, ?_⟩
    have asked := containsDatabase_of_untold untold
    induction names using List.reverseRecOn with
    | nil => rw [List.reverse_nil, findFrom_nil, asked]
    | append_singleton names n _ => rw [findFrom_concat, asked]

/-- **The search goes on upwards** until it stops, or has asked in vain. -/
theorem findFrom_cases (d : Disk) (start : Path) (names : List Name) :
    (∃ a, Stops d (.ofLocation names) a ∧ Verdict d a (findFrom d start names.reverse)) ∨
    (∀ a : Path, a.Covers (.ofLocation names) → ¬ HasDatabase d a ∧ ¬ Untold d a) ∧
      findFrom d start names.reverse = .error (.databaseNotFound start) := by
  induction names using List.reverseRecOn with
  | nil =>
    by_cases stops : HasDatabase d (.ofLocation []) ∨ Untold d (.ofLocation [])
    · exact .inl ⟨_, .here stops, verdict_of_stops stops⟩
    obtain ⟨none, told⟩ := not_or.1 stops
    refine .inr ⟨fun a covers => ?_, ?_⟩
    · obtain ⟨anchor, above⟩ := a
      obtain ⟨rfl, top⟩ := covers
      cases List.prefix_nil.1 top
      exact ⟨none, told⟩
    · rw [List.reverse_nil, findFrom_nil, containsDatabase_of_not none told]
  | append_singleton names n ih =>
    by_cases stops : HasDatabase d (.ofLocation (names ++ [n])) ∨
        Untold d (.ofLocation (names ++ [n]))
    · exact .inl ⟨_, .here stops, verdict_of_stops stops⟩
    obtain ⟨none, told⟩ := not_or.1 stops
    rw [findFrom_concat, containsDatabase_of_not none told]
    -- What is asked next has been asked of the directory above.
    rcases ih with ⟨a, stops, verdict⟩ | ⟨nowhere, failed⟩
    · refine .inl ⟨a, ⟨covers_child_iff.2 (.inr stops.covers), stops.stops, ?_⟩, verdict⟩
      intro b hab hbp ne
      rcases (covers_child_iff (p := .ofLocation names)).1 hbp with rfl | above
      · exact ⟨none, told⟩
      · exact stops.on b hab above ne
    · refine .inr ⟨fun a covers => ?_, failed⟩
      rcases (covers_child_iff (p := .ofLocation names)).1 covers with rfl | above
      · exact ⟨none, told⟩
      · exact nowhere a above

theorem findDatabase_cases (resolved : d.resolve s = .ok p) :
    (∃ a, Stops d p a ∧ Verdict d a (findDatabase d s)) ∨
    (∀ a : Path, a.Covers p → ¬ HasDatabase d a ∧ ¬ Untold d a) ∧
      findDatabase d s = .error (.databaseNotFound p) := by
  have found : findDatabase d s = findFrom d p p.names.reverse := by rw [findDatabase, resolved]
  have place := eq_ofLocation_of_resolve resolved
  rw [found]
  have told := findFrom_cases d p p.names
  rwa [← place] at told

/-- **The nearest database is found**, unless the disk refuses to tell of a directory on the way. -/
theorem findDatabase_of_nearest (resolved : d.resolve s = .ok p) (nearest : Nearest d p a) :
    (ToldUpTo d p a → findDatabase d s = .ok (a.child databaseName)) ∧
    (¬ ToldUpTo d p a → findDatabase d s = .error (.disk .nameTooLong)) := by
  rcases findDatabase_cases resolved with ⟨b, stops, verdict⟩ | ⟨none, -⟩
  · rcases verdict with ⟨has, found⟩ | ⟨untold, refused⟩
    · have nearest' : Nearest d p b :=
        ⟨stops.covers, has, fun c hbc hcp ne => (stops.on c hbc hcp ne).1⟩
      obtain rfl := nearest.unique nearest'
      refine ⟨fun _ => found, fun refuses => absurd (fun c hac hcp => ?_) refuses⟩
      by_cases same : c = a
      · rw [same]
        exact has.told
      · exact (stops.on c hac hcp same).2
    · refine ⟨fun told => ?_, fun _ => refused⟩
      rcases nearest.covers.total stops.covers with above | below
      · exact absurd untold (told b above stops.covers)
      · have ne : a ≠ b := fun same => nearest.has.told (same ▸ untold)
        exact absurd nearest.has (stops.on a below nearest.covers ne).1
  · exact absurd nearest.has (none a nearest.covers).1

/-- **No database is found** if, and only if, the disk says of each directory at or above the start
    that it has none. -/
theorem findDatabase_notFound_iff : (∃ q, findDatabase d s = .error (.databaseNotFound q)) ↔
    ∃ p, d.resolve s = .ok p ∧ ∀ a : Path, a.Covers p → ¬ HasDatabase d a ∧ ¬ Untold d a := by
  constructor
  · rintro ⟨q, failed⟩
    cases resolved : d.resolve s with
    | error e =>
      rw [findDatabase, resolved] at failed
      cases e with
      | disk e => cases e <;> cases failed
      | loop q => cases failed
    | ok p =>
      rcases findDatabase_cases resolved with ⟨b, -, verdict⟩ | ⟨none, -⟩
      · rw [failed] at verdict
        rcases verdict with ⟨-, same⟩ | ⟨-, same⟩ <;> cases same
      · exact ⟨p, rfl, none⟩
  · rintro ⟨p, resolved, none⟩
    rcases findDatabase_cases resolved with ⟨b, stops, -⟩ | ⟨-, failed⟩
    · obtain ⟨no, told⟩ := none b stops.covers
      exact absurd stops.stops (not_or.2 ⟨no, told⟩)
    · exact ⟨p, failed⟩

end

/-! ## What has been created is found -/

namespace Database

/-- **A database that has been created** can be loaded, with no files and the default configuration,
    and no other one can be created in its directory.  From all that is at or below that directory
    the nearest database is found, the same as from all that is between; only where the disk refuses
    to tell of a directory on the way, the search fails.  It says that there is none if, and only
    if, the disk says so of all directories at and above the start. -/
theorem create_found {d d' : Disk} {env : Environment} {dir : Path} {logged : Bool} {db : Database}
    (sound : d.Sound) (created : create d env dir logged = (d', .ok db)) :
    (∀ env' storage logged', env'.IsLocal storage → ∃ d'' db',
      load d' env' (dir.child databaseName) storage logged' = (d'', .ok db') ∧
      db'.path = db.path ∧ db'.config = {} ∧ db'.index = .empty) ∧
    (∀ env' logged', create d' env' dir logged' = (d', .error (.databaseExists dir))) ∧
    (∃ home, d'.resolve dir = .ok home ∧ db.path = home.child databaseName ∧ HasDatabase d' home ∧
      ∀ s p, d'.resolve s = .ok p → home.Covers p → ∃ a, Nearest d' p a ∧ home.Covers a ∧
        (ToldUpTo d' p a → findDatabase d' s = .ok (a.child databaseName) ∧
          ∀ t q, d'.resolve t = .ok q → a.Covers q → q.Covers p →
            findDatabase d' t = findDatabase d' s) ∧
        (¬ ToldUpTo d' p a → findDatabase d' s = .error (.disk .nameTooLong))) ∧
    (∀ s, (∃ q, findDatabase d' s = .error (.databaseNotFound q)) ↔
      ∃ p, d'.resolve s = .ok p ∧ ∀ a : Path, a.Covers p → ¬ HasDatabase d' a ∧ ¬ Untold d' a) ∧
    ∀ s p, d'.resolveStrict s = .ok p → p.hasNull = false → ∀ q : Path, q.Covers p →
      d'.resolve q = .ok q := by
  obtain ⟨home, r, founded, sound', there, resolved, path, -⟩ := founded_of_create sound created
  refine ⟨fun env' storage logged' isLocal => ?_, fun env' logged' => ?_,
    ⟨.ofLocation home, resolved, path, ?_, fun s p at_ below => ?_⟩,
    fun s => findDatabase_notFound_iff, fun s p strict null q covers => ?_⟩
  · rw [path]
    exact load_founded founded sound' isLocal logged'
  · exact create_of_contains there founded.isDir env' logged'
  · exact founded.hasDatabase sound'.top
  · obtain ⟨a, nearest, above⟩ := exists_nearest below (founded.hasDatabase sound'.top)
    obtain ⟨found, refused⟩ := findDatabase_of_nearest at_ nearest
    refine ⟨a, nearest, above, fun told => ⟨found told, fun t q at_' haq hqp => ?_⟩, refused⟩
    have told' : ToldUpTo d' q a := fun b hab hbq => told b hab (hbq.trans hqp)
    rw [found told, (findDatabase_of_nearest at_' (nearest.between haq hqp)).1 told']
  · obtain ⟨loc, rfl, -⟩ :=
      exists_leads_of_resolveStrict sound'.top (fun present => sound'.placed present) strict
    exact resolve_of_covers sound' strict null (congrArg₂ Path.mk covers.1.symm rfl) covers.2

/-- In `/r` another directory has a database already; from what is below that one, also through a
    link, its database is found, and from what is above it that of `/r`. -/
theorem create_found_nested :
    let b : Node := .dir [(databaseName, .dir []), (⟨"c", by decide⟩, .dir [])]
    let r : Node := .dir [(⟨"a", by decide⟩, .dir [(⟨"b", by decide⟩, b)]),
      (⟨"l", by decide⟩, .link "a/b/c")]
    let d : Disk := ⟨.dir [(⟨"r", by decide⟩, r)], ⟨[], 0⟩, ⟨0⟩⟩
    let dir : Path := .ofString "/r"
    let d' : Disk := (create d {} dir false).1
    d.Sound ∧ (∃ db, create d {} dir false = (d', .ok db)) ∧
      (∃ d'' db, load d' {} (dir.child databaseName) none false = (d'', .ok db) ∧
        db.config = {} ∧ db.index = .empty) ∧
      create d' {} dir false = (d', .error (.databaseExists dir)) ∧
      d'.resolve (.ofString "/r/l") = .ok (.ofString "/r/a/b/c") ∧
      Nearest d' (.ofString "/r/a/b/c") (.ofString "/r/a/b") ∧
      findDatabase d' (.ofString "/r/l") = .ok (.ofString "/r/a/b/.sea-serpent") ∧
      findDatabase d' (.ofString "/r/a/b") = findDatabase d' (.ofString "/r/l") ∧
      findDatabase d' (.ofString "/r/a") = .ok (.ofString "/r/.sea-serpent") := by
  intro b r d dir d'
  have sound : d.Sound := ⟨rfl, rfl⟩
  obtain ⟨db, created⟩ : ∃ db, create d {} dir false = (d', .ok db) := by
    cases result : (create d {} dir false).2 with
    | ok db => exact ⟨db, Prod.ext rfl result⟩
    | error e =>
      have isOk : (create d {} dir false).2.isOk = true := by decide +kernel
      rw [result] at isOk
      cases isOk
  obtain ⟨loads, again, ⟨home, resolved, -, has, finds⟩, -, -⟩ := create_found sound created
  obtain ⟨d'', db', loaded, -, config, index⟩ := loads {} none false rfl
  obtain rfl : Path.ofString "/r" = home :=
    Except.ok.inj ((by decide +kernel : d'.resolve dir = .ok (.ofString "/r")).symm.trans resolved)
  have follows : d'.resolve (.ofString "/r/l") = .ok (.ofString "/r/a/b/c") := by decide +kernel
  have found : findDatabase d' (.ofString "/r/l") = .ok (.ofString "/r/a/b/.sea-serpent") := by
    decide +kernel
  obtain ⟨a, nearest, -, told, refused⟩ := finds (.ofString "/r/l") _ follows (by decide)
  have tells : ToldUpTo d' (.ofString "/r/a/b/c") a := by
    by_contra untold
    cases found.symm.trans (refused untold)
  obtain ⟨found', between⟩ := told tells
  have ends : (Path.ofString "/r/a/b").child databaseName = .ofString "/r/a/b/.sea-serpent" := by
    decide
  obtain rfl : Path.ofString "/r/a/b" = a :=
    (Path.child_inj (ends.trans (Except.ok.inj (found.symm.trans found')))).1
  exact ⟨sound, ⟨db, created⟩, ⟨d'', db', loaded, config, index⟩, again {} false, follows, nearest,
    found, between (.ofString "/r/a/b") _ (by decide +kernel) (.refl _) nearest.covers,
    by decide +kernel⟩

/-- **The search fails** below a created database where, in a directory on the way, the name of a
    database is that of a link to a name that is too long, although that directory has none. -/
theorem create_found_long_link :
    let s : Name := ⟨"s", by decide⟩
    let link : Node := .link (String.ofList (List.replicate 300 'n'))
    let d : Disk := ⟨.dir [(s, .dir [(databaseName, link)])], ⟨[], 0⟩, ⟨0⟩⟩
    let d' : Disk := (create d {} .here false).1
    d.Sound ∧ (create d {} .here false).2.isOk = true ∧ d'.resolve .here = .ok .root ∧
      d'.resolve (Path.here.child s) = .ok (Path.root.child s) ∧
      Nearest d' (Path.root.child s) .root ∧
      findDatabase d' (Path.here.child s) = .error (.disk .nameTooLong) := by
  intro s link d d'
  obtain ⟨long, text, above, ne⟩ := exists_long_name
  have dir : d'.top.face? [s] = some .dir := by decide +kernel
  have leads : d'.Leads (Path.root.child s) [s] :=
    .down (.root (face_of_face? dir (List.cons_ne_nil s []))) (by decide) dir nofun
  have fits : ((Path.root.child s).child databaseName).Fits :=
    ⟨by decide, by decide +kernel, by decide⟩
  -- The link is still there; to compute where it leads would take long.
  have there : d'.top.face? [s, databaseName] = some (.link long.text) := by
    rw [text]
    decide +kernel
  have untold : Untold d' (Path.root.child s) :=
    leads.stat_long_link (by decide) dir fits there ne above
  have resolved : d'.resolve (Path.here.child s) = .ok (Path.root.child s) := by decide +kernel
  have nearest : Nearest d' (Path.root.child s) .root := by
    refine ⟨Path.covers_child .root s, by decide +kernel, fun b above below ne => ?_⟩
    rcases covers_child_iff.1 below with rfl | below
    · exact fun has => has.told untold
    · exact absurd (below.antisymm above) ne
  exact ⟨⟨rfl, rfl⟩, by decide +kernel, by decide +kernel, resolved, nearest,
    (findDatabase_of_nearest resolved nearest).2 fun told =>
      told _ nearest.covers (.refl _) untold⟩

end Database

end FileTags
