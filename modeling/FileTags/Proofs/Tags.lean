/-
  Tags and their texts.

  Every text is read as a tag, but not every tag is read: a key ends at the first colon of a text,
  so that a tag with a colon in its key has the text of another tag.

  * `Tag.ofString_eq_iff`: a text is read as the one readable tag that has this text;
  * `Tag.texts_correspond`: the texts are the readable tags.
-/
import FileTags.Tag
import Mathlib.Data.Set.Function

namespace FileTags

namespace Tag

variable {raw : String} {t : Tag}

/-- A tag that a text can stand for: there is no colon in its key. -/
def Readable (t : Tag) : Prop := separator ∉ t.key.toList

instance (t : Tag) : Decidable t.Readable := inferInstanceAs (Decidable (_ ∉ _))

/-- **A text is read as the readable tag that has this text.** -/
theorem ofString_eq_iff : ofString raw = t ↔ t.toString = raw ∧ t.Readable := by
  constructor
  · rintro rfl
    exact ⟨toString_ofString raw, separator_not_mem_key raw⟩
  · rintro ⟨rfl, free⟩
    exact ofString_toString free

theorem range_ofString : Set.range ofString = {t | t.Readable} := by
  ext t
  constructor
  · rintro ⟨raw, read⟩
    exact (ofString_eq_iff.1 read).2
  · intro readable
    exact ⟨t.toString, ofString_eq_iff.2 ⟨rfl, readable⟩⟩

theorem ofString_injective : Function.Injective ofString :=
  Function.LeftInverse.injective toString_ofString

/-- **Texts are the readable tags.**  A text is the text of the tag that is read from it, and a tag
    is read back from its text exactly if there is no colon in its key.  So different texts are
    read as different tags, the tags that are read are the readable ones, and no two of them have
    the same text. -/
theorem texts_correspond :
    (∀ raw, (ofString raw).toString = raw) ∧
    (∀ t : Tag, ofString t.toString = t ↔ separator ∉ t.key.toList) ∧
    Function.Injective ofString ∧
    Set.range ofString = {t | separator ∉ t.key.toList} ∧
    Set.InjOn Tag.toString (Set.range ofString) := by
  refine ⟨toString_ofString, fun t => ?_, ofString_injective, range_ofString, ?_⟩
  · rw [ofString_eq_iff]
    exact and_iff_right rfl
  · rintro _ ⟨raw, rfl⟩ _ ⟨raw', rfl⟩ same
    rw [toString_ofString, toString_ofString] at same
    rw [same]

/-- The text of `("a:b", "c")` is that of `("a", "b:c")`. -/
example : ofString (Tag.pair "a:b" "c").toString = .pair "a" "b:c" := by decide +kernel

end Tag

end FileTags
