/-
  Configurations are kept in their files.

  * `Config.Same` says that two configurations are the same: the order of a whitelist or a
    blacklist means nothing;
  * `stat_saveConfig`: the file of a saved configuration holds its document;
  * `loadConfig_saveConfig`: what is loaded is what was saved, and saving it changes nothing.
-/
import FileTags.Config.File
import FileTags.Proofs.Config.Documents
import FileTags.Proofs.Disk.Growing
import Mathlib.Algebra.Group.Int.Defs

namespace FileTags

namespace Config

/-- Two configurations are the same: their lists hold the same names. -/
structure Same (c c' : Config) : Prop where
  whitelist : c.whitelist.map List.toFinset = c'.whitelist.map List.toFinset
  blacklist : c.blacklist.map List.toFinset = c'.blacklist.map List.toFinset
  aliases : c.aliases = c'.aliases
  version : c.version = c'.version

theorem same_sorted (c : Config) : c.sorted.Same c := by
  have same : ∀ names : Option (List String),
      (names.map nameSet).map List.toFinset = names.map List.toFinset := by
    intro names
    cases names with
    | none => rfl
    | some names => exact congrArg some (toFinset_nameSet names)
  exact ⟨same c.whitelist, same c.blacklist, rfl, rfl⟩

/-- The text of a 64-bit integer is short enough. -/
theorem hasNumeral_of_int64 {n : Int} (low : -2 ^ 63 ≤ n) (high : n < 2 ^ 63) :
    Number.hasNumeral n = true := by
  have small : n.natAbs < Nat.pow 10 20 := by
    have size : n.natAbs ≤ 2 ^ 63 := by omega
    exact size.trans_lt (by decide)
  -- The limit is a variable, since the power of it would be multiplied out.
  have enough : ∀ k, 20 ≤ k → n.natAbs < Nat.pow 10 k := fun k le =>
    small.trans_le (Nat.pow_le_pow_right (by decide) le)
  exact decide_eq_true (enough Number.digitLimit (by decide))

/-- A text is read back from its bytes. -/
theorem fromUTF8?_toUTF8 (text : String) : String.fromUTF8? text.toUTF8 = some text := by
  rw [String.fromUTF8?, String.toUTF8_eq_toByteArray, dif_pos text.isValidUTF8]
  rfl

/-- The configuration in a file that holds the document of one. -/
theorem ofContent_render {c : Config} (file : Path) (writable : c.Writable)
    (distinct : (c.aliases.map (·.1)).Nodup) :
    ofContent file (.ofString c.render) = (ofTable c.document).mapError (.ofConfig file) := by
  rw [Content.ofString, ofContent, fromUTF8?_toUTF8]
  simp only [parse_render writable distinct]

end Config

section
variable {d d' : Disk} {dir file : Path} {c : Config} {e : Error}

/-! ## Saving -/

theorem saveConfig_eq_ok (saved : saveConfig d dir c = (d', .ok file)) :
    file = dir.child configName ∧ ∃ made, d.makeDirs dir = (made, .ok ()) ∧
      made.setContent file (.ofString c.render) = .ok d' := by
  rw [saveConfig] at saved
  split at saved
  · cases saved
  · next made ready =>
    split at saved
    · cases saved
    · next written =>
      cases saved
      exact ⟨rfl, made, ready, written⟩

/-- Saving a configuration takes nothing away. -/
theorem grown_saveConfig {saved : Except Error Path} (grounded : d.Grounded)
    (ended : saveConfig d dir c = (d', saved)) : d.Grown d' := by
  rw [saveConfig] at ended
  split at ended
  next made failed =>
    cases ended
    exact Disk.grown_makeDirs grounded failed
  next made ready =>
    have first := Disk.grown_makeDirs grounded ready
    split at ended
    next =>
      cases ended
      exact first
    next written =>
      cases ended
      exact first.trans (Disk.filed_update (first.grounded grounded) written).toGrown

/-- **The file of a saved configuration** holds its document. -/
theorem stat_saveConfig (grounded : d.Grounded) (saved : saveConfig d dir c = (d', .ok file))
    (kept : d'.stat file ≠ .ok .device) : d'.isDir dir = .ok true ∧
      ∃ inode mode, d'.stat file = .ok (.file inode (.ofString c.render) mode) := by
  obtain ⟨-, made, ready, written⟩ := saveConfig_eq_ok saved
  have grounded₁ := (Disk.grown_makeDirs grounded ready).grounded grounded
  have isDir := Disk.isDir_of_makeDirs grounded ready
  obtain ⟨inode, -, mode, found⟩ := Disk.stat_update grounded₁ written kept
  exact ⟨(Disk.filed_update grounded₁ written).isDir isDir, inode, mode, found⟩

/-! ## Loading -/

/-- The configuration of a directory is the one in its file. -/
theorem loadConfig_of_stat {inode : Inode} {content : Content} {mode : Nat}
    (there : d.stat (dir.child configName) = .ok (.file inode content mode)) :
    loadConfig d dir = Config.ofContent (dir.child configName) content := by
  have present : d.present (dir.child configName) = .ok true := Disk.present_iff.2 ⟨_, there⟩
  have content : d.contentOf (dir.child configName) = .ok content := by
    rw [Disk.contentOf, there]
  simp only [loadConfig, present, content, Except.mapError, bind, Except.bind, Bool.not_true,
    Bool.false_eq_true, if_false]

/-- **What is loaded is what was saved**, for a configuration of a supported version, and saving
    it again changes nothing; a newer version is refused. A configuration that goes to a device is
    lost. -/
theorem loadConfig_saveConfig (grounded : d.Grounded) (distinct : (c.aliases.map (·.1)).Nodup)
    (int64 : ∀ n, c.version = .number n → -2 ^ 63 ≤ n ∧ n < 2 ^ 63)
    (saved : saveConfig d dir c = (d', .ok file)) (kept : d'.stat file ≠ .ok .device) :
    ((∀ n, c.version = .number n → n ≤ Version.newest) →
      ∃ c', loadConfig d' dir = .ok c' ∧ c'.Same c ∧ c'.render = c.render ∧
        saveConfig d' dir c' = (d', .ok file)) ∧
    ∀ n, c.version = .number n → Version.newest < n →
      loadConfig d' dir = .error (.config file (.newerVersion (toString n))) := by
  have writable : c.Writable := fun n version =>
    Config.hasNumeral_of_int64 (int64 n version).1 (int64 n version).2
  obtain ⟨rfl, -⟩ := saveConfig_eq_ok saved
  obtain ⟨isDir, inode, mode, found⟩ := stat_saveConfig grounded saved kept
  have loaded := loadConfig_of_stat found
  rw [Config.ofContent_render _ writable distinct] at loaded
  refine ⟨fun supported => ⟨c.sorted, ?_, c.same_sorted, c.render_sorted, ?_⟩,
    fun n version newer => ?_⟩
  · rw [loaded, Config.ofTable_document supported]
    rfl
  · rw [saveConfig, Disk.makeDirs_of_isDir isDir]
    simp only [c.render_sorted, Disk.setContent_self found]
  · rw [loaded, Config.ofTable_newer newer version writable]
    rfl

end

/-- A configuration with awkward names comes back from a directory that was missing. -/
theorem loadConfig_saveConfig_awkward :
    let c : Config := {
      whitelist := some ["b", "", "a\"b\"", "b"]
      blacklist := some []
      aliases := [("", []), ("x.y", ["2", "\x07\n", "1"])]
      version := .number (-1) }
    let dir := Path.ofString "new/.sea-serpent"
    let empty : Disk := ⟨.dir [], ⟨[], 0⟩, ⟨0⟩⟩
    ∃ d' c', saveConfig empty dir c = (d', .ok (dir.child configName)) ∧
      loadConfig d' dir = .ok c' ∧ c'.Same c ∧
      saveConfig d' dir c' = (d', .ok (dir.child configName)) := by
  intro c dir empty
  have grounded : empty.Grounded := rfl
  have result : (saveConfig empty dir c).2 = .ok (dir.child configName) := by decide +kernel
  have saved : saveConfig empty dir c = ((saveConfig empty dir c).1, .ok (dir.child configName)) :=
    Prod.ext rfl result
  have kept : (saveConfig empty dir c).1.stat (dir.child configName) ≠ .ok .device := by
    decide +kernel
  have int64 : ∀ n, c.version = .number n → -2 ^ 63 ≤ n ∧ n < 2 ^ 63 := by
    intro n version
    cases version
    decide
  have supported : ∀ n, c.version = .number n → n ≤ Version.newest := by
    intro n version
    cases version
    decide
  obtain ⟨c', loaded, same, -, again⟩ :=
    (loadConfig_saveConfig grounded (by decide) int64 saved kept).1 supported
  exact ⟨_, c', saved, loaded, same, again⟩

end FileTags
