/-
  The program.

  The directories around the current one and around what the arguments name are read as a disk, the
  command line runs on it, and what it has changed is written back: files are renamed, and the
  files of databases and the error log are stored.  Other files are never opened.
-/
import FileTags.Command.Run
import FileTags.Database.Archive
import FileTags.Disk.Listing
import Std.Time.Format

namespace FileTags.Program

/-- The result of an action, or another value if the action fails. -/
def orElse {α : Type} (act : IO α) (other : α) : IO α := tryCatch act fun _ => pure other

/-- What is said about a command line that asks for nothing that there is. -/
def usage : String := "Usage: sea-serpent [OPTIONS] COMMAND [ARGS]...\n"

/-! ## Reading -/

/-- The content of a file: an index file that can be read holds an index. -/
def readContent (path : String) (n : Name) : IO Content := do
  let data ← IO.FS.readBinFile path
  let index := if n = dataName then (String.fromUTF8? data).bind Index.ofText? else none
  return match index with
    | some (layout, ix) => .index layout ix
    | none => .bytes data

/-- What a link leads to. -/
def readLink (path : String) : IO Node :=
  orElse (do return .link (← IO.FS.realPath path).toString) (.link "missing")

/-- A file; its content is read where `opened` is set. -/
def readFile (opened : Bool) (path : String) (n : Name) : IO Node := do
  let content ← if opened then readContent path n else pure .empty
  return .file ⟨0⟩ content Disk.publicMode

/-- The tree below a directory. Contents are read where `opened` is set and in databases. -/
partial def readTree (opened : Bool) (path : String) : IO Node := do
  let mut entries : List (Name × Node) := []
  for e in ← orElse (do (← IO.FS.realPath path).readDir) #[] do
    let below := e.path.toString
    if let some n := Name.ofChars? e.fileName.toList then
      let read : IO Node := do
        match (← e.path.symlinkMetadata).type with
        | .dir => readTree (opened || n = databaseName) below
        | .symlink => readLink below
        | .file => readFile opened below n
        | .other => return .device
      entries := (n, ← orElse read .device) :: entries
  return .dir entries

/-- The disk with a tree at an absolute path. -/
def graft (d : Disk) (path : Path) (node : Node) : Disk :=
  (d.makeDirs path.parent).1.place path.names node

/-- The disk with the link at an absolute path, if there is one. -/
def graftLink (d : Disk) (path : Path) : IO Disk := do
  let above ← IO.FS.realPath path.parent.toString
  for e in ← above.readDir do
    if path.name?.map (·.text) = some e.fileName then
      if (← e.path.symlinkMetadata).type == .symlink then
        return graft d (Path.ofString e.path.toString) (← readLink e.path.toString)
  return d

/-- The disk with what an absolute path leads to, and with the links on the way; what is below a
    directory is read where `deep` is set. -/
def graftPath (deep : Bool) (d : Disk) (path : Path) : IO Disk := do
  let mut d := d
  for k in [1 : path.names.length + 1] do
    d ← orElse (graftLink d ⟨path.anchor, path.names.take k⟩) d
  let read : IO Disk := do
    let found ← IO.FS.realPath path.toString
    let real := Path.ofString found.toString
    let opened := databaseName ∈ real.names || real.name? = some homeLogName
    if ← found.isDir then
      if deep then return graft d real (← readTree opened found.toString)
      else return (d.makeDirs real).1
    else match real.name? with
      | some n => return graft d real (← readFile opened found.toString n)
      | none => return d
  orElse read d

/-- Whether a directory holds a database. -/
def holdsDatabase (dir : Path) : IO Bool :=
  orElse (do (← IO.FS.realPath (dir.child databaseName).toString).isDir) false

/-- The nearest directory at or above a directory that holds a database. -/
def databaseRoot? (dir : Path) : IO (Option Path) := do
  for k in [0 : dir.names.length + 1] do
    let above : Path := ⟨dir.anchor, dir.names.take (dir.names.length - k)⟩
    if ← holdsDatabase above then return some above
  return none

/-- The paths that a request names, and whether it is about what is below them. -/
def namedPaths (request : Request) (input : String) : List Path × Bool :=
  match request.command with
  | .ok command =>
    match command.files? with
    | some files => (files.allPaths input, files.options.recursive)
    | none => ([], false)
  | .error _ => ([], false)

/-- The part of the disk that a request may be about. -/
def readDisk (env : Environment) (request : Request) (input : String) : IO Disk := do
  let here := Path.ofString (← IO.currentDir).toString
  let mut d : Disk := .ofTree (.dir []) here.names
  d := (d.makeDirs here).1
  let (named, deep) := namedPaths request input
  for path in named do
    d ← graftPath deep d (here.join path)
  if let some given := request.settings.database then
    d ← graftPath true d (here.join given)
    if given.name? = some databaseName then
      d ← graftPath true d (here.join given).parent
  if let some root := ← databaseRoot? here then
    d ← graftPath true d root
  if let .ok log := homeLogPath env then
    d ← graftPath true d (here.join log)
  return .ofTree d.top here.names

/-- The rest of the input. -/
partial def readInput (text : String) : IO String := do
  let line ← (← IO.getStdin).getLine
  if line.isEmpty then return text else readInput (text ++ line)

/-- The time. -/
def readClock : IO Clock := do
  let plain ← Std.Time.PlainDateTime.now
  let wall := Std.Time.WallTime.ofTimestamp (← Std.Time.Timestamp.now) .zero
  let exact := Std.Time.PlainDateTime.ofWallTime wall
  return ⟨plain.format "uuuu-MM-dd HH:mm:ss",
    exact.format "uuuu-MM-dd'T'HH:mm:ss.SSSSSS" ++ "+00:00"⟩

/-! ## Writing back -/

/-- The bytes of a content. -/
def bytesOf : Content → ByteArray
  | .bytes data => data
  | .index layout ix => (ix.render layout).toUTF8

/-- Whether a file is written by the program: those of databases and the error log are. -/
def isWritten (loc : Location) : Bool :=
  databaseName ∈ loc || loc.getLast? = some homeLogName

/-- Stores a file; one that only its owner may read gets that permission before its content. -/
def writeEntry (f : FileEntry) : IO Unit := do
  let path := Path.ofLocation f.location
  IO.FS.createDirAll path.parent.toString
  if f.mode = Disk.privateMode then
    IO.FS.Handle.mk path.toString .append |> discard
    IO.setAccessRights path.toString ⟨⟨true, true, false⟩, {}, {}⟩
  IO.FS.writeBinFile path.toString (bytesOf f.content)

/-- Writes back what has changed. -/
def writeBack (old new : Disk) (renamed : List (Path × Path)) : IO Unit := do
  for (file, target) in renamed do
    IO.FS.rename (← IO.FS.realPath file.toString) target.toString
  for f in old.top.changes new.top do
    if isWritten f.location then writeEntry f

end FileTags.Program

open FileTags in
/-- Runs the command line. -/
def main (arguments : List String) : IO UInt32 := do
  let env : Environment :=
    { database := ← IO.getEnv "SEASERPENT_DIR"
      storage := ← IO.getEnv "SEASERPENT_BACKEND"
      home := ← IO.getEnv "HOME"
      verbose := ← IO.getEnv "SEASERPENT_VERBOSE" }
  let request := Request.ofArguments env arguments
  let input ← if request.readsInput then Program.readInput "" else pure ""
  let old ← Program.readDisk env request input
  let (new, result) := request.run old env (← Program.readClock) input
  match result with
  | .error e =>
    Program.writeBack old new []
    IO.eprintln e.message
    return Ending.failed.status.toUInt32
  | .ok r =>
    Program.writeBack old new r.renamed
    IO.print r.output
    IO.eprint (if r.ending = .misused then Program.usage else r.noticeText)
    return r.ending.status.toUInt32
