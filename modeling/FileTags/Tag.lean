/-
  Tags.  A tag is a bare word or an attribute with a key and a value; as a text, an attribute
  is written `key:value`.

  * `Tag.ofString` splits a text at its first colon, `Tag.toString` writes a tag;
  * `toString_ofString`: a text is the text of the tag it is read as;
  * `ofString_toString`: a tag is read back from its text if its key has no colon, and
    `separator_not_mem_key`: no tag that is read has one there.
-/

namespace FileTags

/-- A bare word, or an attribute with its key and value. -/
inductive Tag where
  | bare (word : String)
  | pair (key value : String)
deriving DecidableEq

namespace Tag

/-- The character between key and value. -/
def separator : Char := ':'

/-- The characters before and after the first colon, if there is one. -/
def splitColon? : List Char → Option (List Char × List Char)
  | [] => none
  | c :: cs =>
    if c = separator then some ([], cs)
    else (splitColon? cs).map fun (key, value) => (c :: key, value)

/-- The tag that a text denotes: an attribute if it has a colon, split at the first one. -/
def ofString (raw : String) : Tag :=
  match splitColon? raw.toList with
  | none => .bare raw
  | some (key, value) => .pair (String.ofList key) (String.ofList value)

/-- The text of a tag. -/
protected def toString : Tag → String
  | bare word => word
  | pair key value => key ++ String.singleton separator ++ value

instance : ToString Tag := ⟨Tag.toString⟩

/-- The word, or the key of an attribute. -/
def key : Tag → String
  | bare word => word
  | pair key _ => key

/-- The value of an attribute. -/
def value? : Tag → Option String
  | bare _ => none
  | pair _ value => some value

/-- Whether a tag has a value, be it empty. -/
def isAttribute (t : Tag) : Bool := t.value?.isSome

/-- The text by which a policy names a tag: a word itself, an attribute by its key and colon. -/
def policyName : Tag → String
  | bare word => word
  | pair key _ => key ++ String.singleton separator

theorem splitColon?_eq_none_iff {cs : List Char} :
    splitColon? cs = none ↔ separator ∉ cs := by
  induction cs with
  | nil => simp [splitColon?]
  | cons c cs ih =>
    simp only [splitColon?, List.mem_cons, not_or]
    split
    · next h => simp [h]
    · next h => simp [ih, Ne.symm h]

theorem eq_of_splitColon? {cs key value : List Char} (h : splitColon? cs = some (key, value)) :
    cs = key ++ separator :: value := by
  induction cs generalizing key with
  | nil => simp [splitColon?] at h
  | cons c cs ih =>
    rw [splitColon?] at h
    split at h
    · next hc => cases h; simp [hc]
    · obtain ⟨⟨k, v⟩, hk, he⟩ := Option.map_eq_some_iff.1 h
      cases he
      simp [ih hk]

/-- **Reading loses nothing.** -/
theorem toString_ofString (raw : String) : (ofString raw).toString = raw := by
  rw [ofString]
  split
  · rfl
  · next key value h =>
    apply String.toList_injective
    simp [Tag.toString, eq_of_splitColon? h, String.toList_append]

theorem splitColon?_append {key : List Char} (free : separator ∉ key) (value : List Char) :
    splitColon? (key ++ separator :: value) = some (key, value) := by
  induction key with
  | nil => simp [splitColon?]
  | cons c key ih =>
    obtain ⟨ne, free⟩ := not_or.1 (mt List.mem_cons.2 free)
    rw [List.cons_append, splitColon?, if_neg (Ne.symm ne), ih free, Option.map_some]

theorem separator_not_mem_of_splitColon? {cs key value : List Char}
    (h : splitColon? cs = some (key, value)) : separator ∉ key := by
  induction cs generalizing key with
  | nil => cases h
  | cons c cs ih =>
    rw [splitColon?] at h
    split at h
    · cases h
      exact List.not_mem_nil
    · next ne =>
      obtain ⟨⟨k, v⟩, hk, he⟩ := Option.map_eq_some_iff.1 h
      cases he
      exact mt List.mem_cons.1 (not_or.2 ⟨Ne.symm ne, ih hk⟩)

theorem separator_not_mem_key (raw : String) : separator ∉ (ofString raw).key.toList := by
  rw [ofString]
  split
  · next h => exact splitColon?_eq_none_iff.1 h
  · next key value h =>
    rw [Tag.key, String.toList_ofList]
    exact separator_not_mem_of_splitColon? h

/-- **A tag is read back from its text** if there is no colon in its key. -/
theorem ofString_toString {t : Tag} (free : separator ∉ t.key.toList) :
    ofString t.toString = t := by
  cases t with
  | bare word =>
    have whole : splitColon? word.toList = none := splitColon?_eq_none_iff.2 free
    simp only [ofString, Tag.toString, whole]
  | pair key value =>
    have text : (Tag.toString (.pair key value)).toList =
        key.toList ++ separator :: value.toList := by
      simp [Tag.toString, String.toList_append]
    have parts : splitColon? (key.toList ++ separator :: value.toList) =
        some (key.toList, value.toList) := splitColon?_append free value.toList
    simp only [ofString, text, parts, String.ofList_toList]

end Tag

end FileTags
