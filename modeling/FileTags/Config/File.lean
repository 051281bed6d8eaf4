/-
  The configuration file of a database directory.

  * `loadConfig` reads the configuration of a directory; without a file it is the default one;
  * `saveConfig` writes it, and makes the directory if it is missing.
-/
import FileTags.Disk.Edit
import FileTags.Error

namespace FileTags

/-- The name of the configuration file. -/
def configName : Name := ⟨"config.toml", by decide⟩

/-- The configuration in a file's content. -/
def Config.ofContent (file : Path) : Content → Except Error Config
  | .index _ _ => .error .undecodable
  | .bytes data =>
    match String.fromUTF8? data with
    | none => .error .undecodable
    | some text =>
      match Toml.parse text.toList with
      | .error .malformed => .error (.config file .malformed)
      | .error (.numeral e) => .error (.numeral e)
      | .ok table => (Config.ofTable table).mapError (.ofConfig file)

/-- The configuration of a directory. -/
def loadConfig (d : Disk) (dir : Path) : Except Error Config := do
  let file := dir.child configName
  if !(← (d.present file).mapError .ofDisk) then return {}
  let content ← (d.contentOf file).mapError .ofDisk
  Config.ofContent file content

/-- The disk with a configuration in a directory, and the path of its file. -/
def saveConfig (d : Disk) (dir : Path) (c : Config) : Disk × Except Error Path :=
  match d.makeDirs dir with
  | (d, .error e) => (d, .error (.ofDisk e))
  | (d, .ok ()) =>
    match d.setContent (dir.child configName) (.ofString c.render) with
    | .error e => (d, .error (.ofDisk e))
    | .ok d => (d, .ok (dir.child configName))

end FileTags
