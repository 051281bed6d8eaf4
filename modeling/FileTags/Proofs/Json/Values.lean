/-
  A reader of JSON texts, and what it makes of the values that are written.

  White space may stand before and after every token.  Arrays and objects are blocks: elements
  between brackets with commas between them, and no comma before the closing bracket.  The reader
  takes a budget, which bounds the depth of the blocks and the elements of each.

  * `read?` reads a whole text as one value;
  * `readBlock_block`: a written block is read back if each of its elements is;
  * `read?_render`: a written value is read back, so `render_injective`: no two are written alike;
  * `ascii_render`: it is written in printable ASCII and line feeds.
-/
import FileTags.Proofs.Json.Strings
import Mathlib.Data.List.Forall2

namespace FileTags.Text.Json

/-! ## The reader -/

/-- What may stand between tokens. -/
def isBlank (c : Char) : Bool := c = ' ' || c = '\t' || c = '\n' || c = '\r'

/-- What follows the white space. -/
def skipBlanks (cs : List Char) : List Char := cs.dropWhile isBlank

/-- Reads something from the front of a text and gives what follows it. -/
abbrev Reader (α : Type) := List Char → Option (α × List Char)

section
variable {α : Type} (element : Reader α) (closing : Char)

/-- Elements, one at least, with commas between them, up to the closing bracket. -/
def readElements : Nat → Reader (List α)
  | 0, _ => none
  | budget + 1, cs =>
    match element cs with
    | none => none
    | some (a, rest) =>
      match skipBlanks rest with
      | [] => none
      | c :: rest =>
        if c = closing then some ([a], rest)
        else if c = ',' then (readElements budget rest).map fun (as, rest) => (a :: as, rest)
        else none

/-- A block after its opening bracket. -/
def readBlock (budget : Nat) : Reader (List α) := fun cs =>
  match skipBlanks cs with
  | [] => none
  | c :: rest =>
    if c = closing then some ([], rest) else readElements element closing budget (c :: rest)

end

/-- A member of an object, whose value is read as given. -/
def readMember (value : Reader Json) : Reader (String × Json) := fun cs =>
  match skipBlanks cs with
  | '"' :: cs =>
    (readString cs).bind fun (key, rest) =>
      match skipBlanks rest with
      | ':' :: rest => (value rest).map fun (v, rest) => ((key, v), rest)
      | _ => none
  | _ => none

/-- A value. -/
def readValue : Nat → Reader Json
  | 0, _ => none
  | budget + 1, cs =>
    match skipBlanks cs with
    | '"' :: cs => (readString cs).map fun (s, rest) => (string s, rest)
    | '[' :: cs =>
      (readBlock (readValue budget) ']' budget cs).map fun (items, rest) => (array items, rest)
    | '{' :: cs =>
      (readBlock (readMember (readValue budget)) '}' budget cs).map fun (members, rest) =>
        (object members, rest)
    | _ => none

/-- A text as one value, with nothing but white space around it. -/
def read? (text : String) : Option Json :=
  (readValue text.toList.length text.toList).bind fun (j, rest) =>
    if skipBlanks rest = [] then some j else none

/-! ## White space -/

variable {α : Type} {element : Reader α} {closing opening c : Char} {cs gap rest text : List Char}
variable {a : α} {as : List α} {texts : List (List Char)} {depth budget : Nat}

theorem skipBlanks_append (blank : ∀ c ∈ gap, isBlank c = true) (cs : List Char) :
    skipBlanks (gap ++ cs) = skipBlanks cs :=
  List.dropWhile_append_of_pos blank

theorem skipBlanks_cons (full : isBlank c = false) : skipBlanks (c :: cs) = c :: cs := by
  simp [skipBlanks, full]

theorem isBlank_newline (depth : Nat) : ∀ c ∈ newline depth, isBlank c = true := by
  intro c there
  rcases List.mem_cons.1 there with rfl | there
  · rfl
  · rw [List.eq_of_mem_replicate there]
    rfl

/-- Whether a reader starts behind the white space. -/
def SkipsBlanks (element : Reader α) : Prop :=
  ∀ gap cs, (∀ c ∈ gap, isBlank c = true) → element (gap ++ cs) = element cs

theorem skipsBlanks_readMember (value : Reader Json) : SkipsBlanks (readMember value) := by
  intro gap cs blank
  rw [readMember, readMember, skipBlanks_append blank]

theorem skipsBlanks_readValue (budget : Nat) : SkipsBlanks (readValue budget) := by
  intro gap cs blank
  cases budget with
  | zero => rfl
  | succ budget => rw [readValue, readValue, skipBlanks_append blank]

theorem skipsBlanks_readElements (skips : SkipsBlanks element) (closing : Char) (budget : Nat) :
    SkipsBlanks (readElements element closing budget) := by
  intro gap cs blank
  cases budget with
  | zero => rfl
  | succ budget => rw [readElements, readElements, skips gap cs blank]

/-! ## Blocks -/

/-- A text that is read as an element, whatever follows it, and that looks neither like white
    space nor like the end of a block. -/
structure Reads (element : Reader α) (closing : Char) (a : α) (text : List Char) : Prop where
  head : ∃ c cs, text = c :: cs ∧ isBlank c = false ∧ c ≠ closing
  reads : ∀ rest, element (text ++ rest) = some (a, rest)

theorem reads_of_opening (opening : Char) (full : isBlank opening = false) (other : opening ≠ closing)
    (read : ∀ rest, ∃ cs, text ++ rest = opening :: cs ∧
      element (opening :: cs) = some (a, rest)) :
    Reads element closing a text where
  head := by
    obtain ⟨cs, written, -⟩ := read []
    exact ⟨opening, cs, by rwa [List.append_nil] at written, full, other⟩
  reads rest := by
    obtain ⟨cs, written, read⟩ := read rest
    rw [written, read]

/-- **The elements of a block are read back.** -/
theorem readElements_join (skips : SkipsBlanks element) (full : isBlank closing = false)
    (comma : closing ≠ ',') (each : List.Forall₂ (Reads element closing) (a :: as) (text :: texts))
    (enough : texts.length < budget) (inner outer : Nat) (rest : List Char) :
    readElements element closing budget
        (join (',' :: newline inner) (text :: texts) ++ (newline outer ++ closing :: rest)) =
      some (a :: as, rest) := by
  induction texts generalizing a as text budget with
  | nil =>
    obtain ⟨first, none⟩ := List.forall₂_cons.1 each
    obtain rfl : as = [] := List.forall₂_nil_right_iff.1 none
    obtain ⟨budget, rfl⟩ := Nat.exists_eq_succ_of_ne_zero (by omega : budget ≠ 0)
    simp only [join, readElements, first.reads, skipBlanks_append (isBlank_newline outer),
      skipBlanks_cons full, if_true]
  | cons next texts ih =>
    obtain ⟨first, others⟩ := List.forall₂_cons.1 each
    obtain ⟨b, bs, -, -, rfl⟩ := List.forall₂_cons_right_iff.1 others
    obtain ⟨budget, rfl⟩ := Nat.exists_eq_succ_of_ne_zero (by omega : budget ≠ 0)
    have short : texts.length < budget := by simpa using enough
    have more := ih others short
    rw [join_cons_cons, List.append_assoc, List.append_assoc, List.cons_append, readElements,
      first.reads]
    simp only [skipBlanks_cons (c := ',') rfl, if_neg (Ne.symm comma), if_true,
      skipsBlanks_readElements skips closing budget _ _ (isBlank_newline inner), more,
      Option.map_some]

/-- **A block is read back** if its elements are. -/
theorem readBlock_block (skips : SkipsBlanks element) (full : isBlank closing = false)
    (comma : closing ≠ ',') (each : List.Forall₂ (Reads element closing) as texts)
    (enough : texts.length ≤ budget) (depth : Nat) (rest : List Char) :
    ∃ cs, block depth opening closing texts ++ rest = opening :: cs ∧
      readBlock element closing budget cs = some (as, rest) := by
  cases each with
  | nil => exact ⟨closing :: rest, rfl, by simp [readBlock, skipBlanks_cons full]⟩
  | @cons a text as texts first others =>
    refine ⟨newline (depth + 1) ++ (join (',' :: newline (depth + 1)) (text :: texts) ++
      (newline depth ++ closing :: rest)), by simp [block], ?_⟩
    have read := readElements_join skips full comma (.cons first others) enough (depth + 1) depth
      rest
    obtain ⟨c, cs, rfl, visible, other⟩ := first.head
    obtain ⟨ds, front⟩ : ∃ ds,
        join (',' :: newline (depth + 1)) ((c :: cs) :: texts) = c :: ds := by
      cases texts with
      | nil => exact ⟨cs, rfl⟩
      | cons next texts => exact ⟨_, by rw [join_cons_cons, List.cons_append, List.cons_append]⟩
    rw [front, List.cons_append] at read ⊢
    rw [readBlock, skipBlanks_append (isBlank_newline (depth + 1)), skipBlanks_cons visible]
    simp only
    rw [if_neg other, read]

/-! ## The budget -/

theorem length_texts_le_join {sep : List Char} (ne : sep ≠ []) (texts : List (List Char)) :
    texts.length ≤ (join sep texts).length + 1 := by
  have pos := List.length_pos_of_ne_nil ne
  induction texts with
  | nil => exact Nat.zero_le _
  | cons text texts ih =>
    cases texts with
    | nil => exact Nat.le_add_left _ _
    | cons next texts =>
      rw [join_cons_cons, List.length_append, List.length_append, List.length_cons]
      omega

/-- A block is longer than it has elements, and longer than each of them. -/
theorem length_lt_block (depth : Nat) (opening closing : Char) (texts : List (List Char)) :
    texts.length < (block depth opening closing texts).length ∧
      ∀ text ∈ texts, text.length < (block depth opening closing texts).length := by
  cases texts with
  | nil => simp [block]
  | cons text texts =>
    have count := length_texts_le_join (List.cons_ne_nil ',' (newline (depth + 1)))
      (text :: texts)
    have shorter (other : List Char) (there : other ∈ text :: texts) :
        other.length ≤ (join (',' :: newline (depth + 1)) (text :: texts)).length :=
      (sublist_join there).length_le
    simp only [block, List.length_cons, List.length_append, List.length_nil] at count ⊢
    refine ⟨by omega, fun other there => ?_⟩
    have := shorter other there
    omega

/-- The length of a block is budget enough to read it. -/
theorem exists_budget {element : Nat → Reader α} (skips : ∀ budget, SkipsBlanks (element budget))
    (full : isBlank closing = false) (comma : closing ≠ ',')
    (each : ∀ budget, (∀ text ∈ texts, text.length ≤ budget) →
      List.Forall₂ (Reads (element budget) closing) as texts)
    (enough : (block depth opening closing texts).length ≤ budget) :
    ∃ b, budget = b + 1 ∧ ∀ rest, ∃ cs, block depth opening closing texts ++ rest = opening :: cs ∧
      readBlock (element b) closing b cs = some (as, rest) := by
  obtain ⟨count, shorter⟩ := length_lt_block depth opening closing texts
  obtain ⟨b, rfl⟩ := Nat.exists_eq_succ_of_ne_zero (by omega : budget ≠ 0)
  refine ⟨b, rfl, fun rest =>
    readBlock_block (skips b) full comma (each b ?_) (by omega) depth rest⟩
  intro text there
  have := shorter text there
  omega

/-! ## Values -/

mutual

/-- **A written value is read back**, whatever follows it. -/
theorem reads_renderAt (j : Json) (depth budget : Nat)
    (enough : (renderAt depth j).length ≤ budget) :
    Reads (readValue budget) ']' j (renderAt depth j) := by
  cases j with
  | string s =>
    rw [renderAt] at enough ⊢
    obtain ⟨budget, rfl⟩ : ∃ b, budget = b + 1 := by
      refine Nat.exists_eq_succ_of_ne_zero fun none => ?_
      simp [renderString, none] at enough
    refine reads_of_opening '"' rfl (by decide) fun rest => ⟨_, renderString_append s rest, ?_⟩
    rw [readValue, skipBlanks_cons rfl]
    simp only [readString_renderString, Option.map_some]
  | array items =>
    rw [renderAt] at enough ⊢
    obtain ⟨budget, rfl, read⟩ := exists_budget skipsBlanks_readValue rfl (by decide)
      (reads_renderItems items (depth + 1)) enough
    refine reads_of_opening '[' rfl (by decide) fun rest => ?_
    obtain ⟨cs, written, read⟩ := read rest
    refine ⟨cs, written, ?_⟩
    rw [readValue, skipBlanks_cons rfl]
    simp only [read, Option.map_some]
  | object members =>
    rw [renderAt] at enough ⊢
    obtain ⟨budget, rfl, read⟩ := exists_budget (fun b => skipsBlanks_readMember (readValue b)) rfl
      (by decide) (reads_renderMembers members (depth + 1)) enough
    refine reads_of_opening '{' rfl (by decide) fun rest => ?_
    obtain ⟨cs, written, read⟩ := read rest
    refine ⟨cs, written, ?_⟩
    rw [readValue, skipBlanks_cons rfl]
    simp only [read, Option.map_some]

theorem reads_renderItems (items : List Json) (depth budget : Nat)
    (enough : ∀ text ∈ renderItems depth items, text.length ≤ budget) :
    List.Forall₂ (Reads (readValue budget) ']') items (renderItems depth items) := by
  cases items with
  | nil => exact .nil
  | cons item items =>
    rw [renderItems] at enough ⊢
    obtain ⟨first, others⟩ := List.forall_mem_cons.1 enough
    exact .cons (reads_renderAt item depth budget first)
      (reads_renderItems items depth budget others)

theorem reads_renderMembers (members : List (String × Json)) (depth budget : Nat)
    (enough : ∀ text ∈ renderMembers depth members, text.length ≤ budget) :
    List.Forall₂ (Reads (readMember (readValue budget)) '}') members
      (renderMembers depth members) := by
  cases members with
  | nil => exact .nil
  | cons member members =>
    obtain ⟨key, value⟩ := member
    rw [renderMembers] at enough ⊢
    obtain ⟨first, others⟩ := List.forall_mem_cons.1 enough
    have short : (renderAt depth value).length ≤ budget := by
      rw [List.length_append] at first
      omega
    have read := (reads_renderAt value depth budget short).reads
    refine .cons (reads_of_opening '"' rfl (by decide) fun rest => ?_)
      (reads_renderMembers members depth budget others)
    have skip := skipsBlanks_readValue budget [' '] (renderAt depth value ++ rest)
      (List.forall_mem_singleton.2 rfl)
    refine ⟨_, by rw [List.append_assoc, List.append_assoc, renderString_append], ?_⟩
    rw [readMember, skipBlanks_cons rfl]
    simp only [readString_renderString, Option.bind_some, List.cons_append, List.nil_append,
      skipBlanks_cons (c := ':') rfl] at skip ⊢
    rw [skip, read, Option.map_some]

end

/-- **A value is read back from its text.** -/
theorem read?_render (j : Json) : read? j.render = some j := by
  have read := (reads_renderAt j 0 _ (Nat.le_refl _)).reads []
  rw [List.append_nil] at read
  rw [read?, render, String.toList_ofList, read]
  rfl

/-- **No two values are written alike.** -/
theorem render_injective : Function.Injective render := by
  intro i j same
  have read := read?_render i
  rw [same, read?_render j] at read
  exact (Option.some.inj read).symm

/-! ## ASCII -/

/-- The characters that a text is written with. -/
def IsPlain (c : Char) : Prop := c = '\n' ∨ 0x20 ≤ c.toNat ∧ c.toNat ≤ 0x7e

theorem isPlain_of_printable (printable : isPrintableAscii c = true) : IsPlain c := by
  simp only [isPrintableAscii, Bool.and_eq_true, decide_eq_true_eq] at printable
  exact .inr (by omega)

theorem isPlain_newline : ∀ c ∈ newline depth, IsPlain c := by
  intro c there
  rcases List.mem_cons.1 there with rfl | there
  · exact .inl rfl
  · rw [List.eq_of_mem_replicate there]
    exact .inr (by decide)

theorem isPlain_join {sep : List Char} (seps : ∀ c ∈ sep, IsPlain c)
    (each : ∀ text ∈ texts, ∀ c ∈ text, IsPlain c) : ∀ c ∈ join sep texts, IsPlain c := by
  induction texts with
  | nil => exact fun _ none => by cases none
  | cons text texts ih =>
    obtain ⟨first, others⟩ := List.forall_mem_cons.1 each
    cases texts with
    | nil => exact first
    | cons next texts =>
      intro c there
      rw [join_cons_cons, List.mem_append, List.mem_append] at there
      rcases there with (there | there) | there
      · exact first c there
      · exact seps c there
      · exact ih others c there

theorem isPlain_block (opens : IsPlain opening) (closes : IsPlain closing)
    (each : ∀ text ∈ texts, ∀ c ∈ text, IsPlain c) :
    ∀ c ∈ block depth opening closing texts, IsPlain c := by
  cases texts with
  | nil => simpa [block] using ⟨opens, closes⟩
  | cons text texts =>
    have comma : ∀ c ∈ ',' :: newline (depth + 1), IsPlain c :=
      List.forall_mem_cons.2 ⟨.inr (by decide), isPlain_newline⟩
    intro c there
    simp only [block, List.cons_append, List.mem_cons, List.mem_append, List.not_mem_nil,
      or_false] at there
    rcases there with rfl | ((there | there) | there) | rfl
    · exact opens
    · exact isPlain_newline c there
    · exact isPlain_join comma each c there
    · exact isPlain_newline c there
    · exact closes

mutual

/-- **Values are written in printable ASCII and line feeds.** -/
theorem isPlain_renderAt (depth : Nat) (j : Json) : ∀ c ∈ renderAt depth j, IsPlain c := by
  cases j with
  | string s => exact fun c there => isPlain_of_printable (isPrintableAscii_renderString there)
  | array items =>
    rw [renderAt]
    exact isPlain_block (.inr (by decide)) (.inr (by decide)) (isPlain_renderItems _ items)
  | object members =>
    rw [renderAt]
    exact isPlain_block (.inr (by decide)) (.inr (by decide)) (isPlain_renderMembers _ members)

theorem isPlain_renderItems (depth : Nat) (items : List Json) :
    ∀ text ∈ renderItems depth items, ∀ c ∈ text, IsPlain c := by
  cases items with
  | nil => exact fun _ none => by cases none
  | cons item items =>
    exact List.forall_mem_cons.2 ⟨isPlain_renderAt depth item, isPlain_renderItems depth items⟩

theorem isPlain_renderMembers (depth : Nat) (members : List (String × Json)) :
    ∀ text ∈ renderMembers depth members, ∀ c ∈ text, IsPlain c := by
  cases members with
  | nil => exact fun _ none => by cases none
  | cons member members =>
    obtain ⟨key, value⟩ := member
    refine List.forall_mem_cons.2 ⟨fun c there => ?_, isPlain_renderMembers depth members⟩
    simp only [List.mem_append, List.mem_cons, List.not_mem_nil, or_false] at there
    rcases there with (there | rfl | rfl) | there
    · exact isPlain_of_printable (isPrintableAscii_renderString there)
    · exact .inr (by decide)
    · exact .inr (by decide)
    · exact isPlain_renderAt depth value c there

end

/-- The text of a value is in printable ASCII and line feeds. -/
theorem isPlain_render (j : Json) : ∀ c ∈ j.render.toList, IsPlain c := by
  rw [render, String.toList_ofList]
  exact isPlain_renderAt 0 j

end FileTags.Text.Json
