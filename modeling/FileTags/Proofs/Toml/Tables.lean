/-
  Tables are read back as they are written.

  A document starts with members of its own; after a header come the members of a table.

  * `Table.set_of_absent`: a new member goes to the end of a table;
  * `Scope.AtTop` says what has been named before any header, `Scope.InTable` after one;
    `AtTop.assign`, `AtTop.openTable` and `InTable.assign` keep that through one line;
  * `reading_member`, `reading_header` and `reading_members`: so do the lines that are written.
-/
import FileTags.Proofs.Toml.Lines

namespace FileTags.Toml

variable {members entries t : Table} {k name : String} {v w : Value} {s : Scope} {cs : List Char}

/-! ## Members -/

namespace Table

theorem set_of_absent (absent : t.get? k = none) (v : Value) : t.set k v = t ++ [(k, v)] := by
  induction t with
  | nil => rfl
  | cons m t ih =>
    obtain ⟨n, u⟩ := m
    rw [get?, List.lookup_cons] at absent
    split at absent
    · cases absent
    next other =>
      rw [set, if_neg (by simpa using other), ih absent]
      rfl

theorem get?_append : (t ++ members).get? k = (t.get? k).or (members.get? k) := List.lookup_append

theorem get?_concat_self (absent : t.get? k = none) : (t ++ [(k, v)]).get? k = some v := by
  rw [get?_append, absent]
  simp [get?]

theorem set_concat (absent : t.get? k = none) (v w : Value) :
    set k w (t ++ [(k, v)]) = t ++ [(k, w)] := by
  induction t with
  | nil => simp [set]
  | cons m t ih =>
    obtain ⟨n, u⟩ := m
    rw [get?, List.lookup_cons] at absent
    split at absent
    · cases absent
    next other =>
      rw [List.cons_append, set, if_neg (by simpa using other), ih absent]
      rfl

end Table

/-! ## What has been named -/

namespace Scope

/-- Before any header, some members of the document have been named. -/
structure AtTop (members : Table) (s : Scope) : Prop where
  root : s.root = members
  header : s.header = []
  headed : s.headed = []
  passed : s.passed = []
  closed : ∀ k ∈ s.closed, ∃ name, k = [name] ∧ (members.get? name).isSome

/-- After the header of a table, some members of the table have been named. -/
structure InTable (members : Table) (name : String) (entries : Table) (s : Scope) : Prop where
  absent : members.get? name = none
  root : s.root = members ++ [(name, .table entries)]
  header : s.header = [name]
  closed : isUnder s.closed [name] = false

theorem atTop_empty : AtTop [] empty := ⟨rfl, rfl, rfl, rfl, List.forall_mem_nil _⟩

theorem addMember_of_absent (absent : t.get? k = none) (v : Value) :
    addMember k v t = .ok (t ++ [(k, v)]) := by
  rw [addMember, absent, Table.set_of_absent absent]
  rfl

/-- A member of the document is named. -/
theorem AtTop.assign (top : AtTop members s) (absent : members.get? name = none) (v : Value) :
    ∃ s', s.assign [name] v = .ok s' ∧ AtTop (members ++ [(name, v)]) s' := by
  have open_ : isUnder s.closed [] = false := by
    refine List.any_eq_false.2 fun k there => ?_
    obtain ⟨n, rfl, -⟩ := top.closed k there
    exact Bool.false_ne_true
  have added : addAt true [name] v s.root = .ok (members ++ [(name, v)]) := by
    rw [top.root]
    exact addMember_of_absent absent v
  have assigned : s.assign [name] v = .ok { s with
      root := members ++ [(name, v)]
      closed := if v.isContainer then [name] :: s.closed else s.closed } := by
    simp [Scope.assign, passedKeys, top.header, open_, added]
  refine ⟨_, assigned, rfl, top.header, top.headed, top.passed, fun k there => ?_⟩
  have own : k = [name] ∨ k ∈ s.closed := by
    simp only at there
    split at there
    · exact List.mem_cons.1 there
    · exact .inr there
  rcases own with rfl | before
  · exact ⟨name, rfl, by rw [Table.get?_concat_self absent]; rfl⟩
  · obtain ⟨n, rfl, named⟩ := top.closed k before
    refine ⟨n, rfl, ?_⟩
    rw [Table.get?_append]
    simp [named]

/-- The header of a table is named. -/
theorem AtTop.openTable (top : AtTop members s) (absent : members.get? name = none) :
    ∃ s', s.settle.openTable [name] = .ok s' ∧ InTable members name [] s' := by
  have open_ : isUnder s.closed [name] = false := by
    refine List.any_eq_false.2 fun k there => ?_
    obtain ⟨n, rfl, named⟩ := top.closed k there
    have other : n ≠ name := by
      rintro rfl
      rw [absent] at named
      cases named
    simp [other]
  have made : inTable true .ok [name] members = .ok (members ++ [(name, .table [])]) := by
    simp only [inTable, absent, Except.map, Table.set_of_absent absent]
  have opened : s.settle.openTable [name] = .ok { s with
      root := members ++ [(name, .table [])]
      header := [name]
      headed := [[name]] } := by
    simp [Scope.openTable, settle, top.headed, top.passed, top.root, open_, made]
  exact ⟨_, opened, absent, rfl, rfl, open_⟩

/-- A member of a table is named. -/
theorem InTable.assign (inside : InTable members name entries s) (absent : entries.get? k = none)
    (v : Value) :
    ∃ s', s.assign [k] v = .ok s' ∧ InTable members name (entries ++ [(k, v)]) s' := by
  have added : addAt true [name, k] v s.root =
      .ok (members ++ [(name, .table (entries ++ [(k, v)]))]) := by
    have table : (members ++ [(name, Value.table entries)]).get? name = some (.table entries) :=
      Table.get?_concat_self inside.absent
    simp only [addAt, inside.root, List.getLast?_cons_cons, List.getLast?_singleton,
      List.dropLast_cons_cons, List.dropLast_singleton, inTable, table, addMember_of_absent absent,
      Except.map, Table.set_concat inside.absent]
  have assigned : s.assign [k] v = .ok { s with
      root := members ++ [(name, .table (entries ++ [(k, v)]))]
      closed := if v.isContainer then [name, k] :: s.closed else s.closed } := by
    simp [Scope.assign, passedKeys, inside.header, inside.closed, added]
  refine ⟨_, assigned, inside.absent, rfl, inside.header, ?_⟩
  have below : isUnder ([name, k] :: s.closed) [name] = false := by
    rw [isUnder, List.any_cons, ← isUnder, inside.closed]
    simp
  simp only
  split
  · exact below
  · exact inside.closed

end Scope

/-! ## Lines -/

theorem reading_member (top : s.AtTop members) (absent : members.get? name = none)
    (written : WrittenFor v cs) :
    ∃ s', Reading s (writeMember name cs) s' ∧ s'.AtTop (members ++ [(name, v)]) := by
  obtain ⟨s', assigned, top'⟩ := top.assign absent v
  exact ⟨s', reading_of_line (by simp [writeMember]) (line_writeMember written assigned), top'⟩

theorem reading_header (top : s.AtTop members) (absent : members.get? name = none) :
    ∃ s', Reading s (writeHeader name) s' ∧ s'.InTable members name [] := by
  obtain ⟨s', opened, inside⟩ := top.openTable absent
  exact ⟨s', reading_of_line (List.cons_ne_nil _ _) (line_writeHeader opened), inside⟩

/-- **The lines of a table** name its members. -/
theorem reading_members {lists : List (String × List String)}
    (inside : s.InTable members name entries) (distinct : (lists.map (·.1)).Nodup)
    (absent : ∀ list ∈ lists, entries.get? list.1 = none) :
    ∃ s', Reading s (lists.flatMap fun (k, items) => writeMember k (writeStrings items)) s' ∧
      s'.InTable members name
        (entries ++ lists.map fun (k, items) => (k, .array (items.map .string))) := by
  induction lists generalizing entries s with
  | nil => exact ⟨s, reading_nil s, by simpa using inside⟩
  | cons list lists ih =>
    obtain ⟨k, items⟩ := list
    rw [List.map_cons, List.nodup_cons] at distinct
    obtain ⟨s₁, assigned, inside₁⟩ :=
      inside.assign (absent (k, items) List.mem_cons_self) (.array (items.map .string))
    have later : ∀ list ∈ lists,
        (entries ++ [(k, Value.array (items.map .string))]).get? list.1 = none := by
      intro list there
      have other : list.1 ≠ k := fun e => distinct.1 (List.mem_map.2 ⟨list, there, e⟩)
      rw [Table.get?_append, absent list (List.mem_cons_of_mem _ there)]
      simp [Table.get?, other]
    obtain ⟨s', rest, inside'⟩ := ih inside₁ distinct.2 later
    refine ⟨s', ?_, by simpa using inside'⟩
    rw [List.flatMap_cons]
    exact (reading_of_line (by simp [writeMember])
      (line_writeMember (writtenFor_strings items) assigned)).append rest

end FileTags.Toml
