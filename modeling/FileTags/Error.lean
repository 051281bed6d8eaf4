/-
  What can go wrong with a database.

  * `Error` lists the causes, `Error.message` words them;
  * `Error.isExpected` tells the errors that a user is told about from those that nobody foresaw.
-/
import FileTags.Config.Document
import FileTags.Disk.Resolve
import FileTags.Query
import FileTags.Template

namespace FileTags

open Text

/-- The system's word for its errors. -/
def systemErrorText : String := "<os error>"

/-- The word for bytes that are no text. -/
def encodingErrorText : String := "<utf-8 error>"

/-- Why something was not done. -/
inductive Error where
  | databaseNotFound (start : Path)
  | dataFileNotFound (file : Path)
  | fileNotInDatabase (file : Path)
  | pathNotFound (file : Path)
  | pathOutside (file root : Path)
  | cannotCreate (dir : Path)
  | cannotOpen (name : String)
  /-- What is opened as a file is none. -/
  | cannotRead (name : String)
  /-- The file of an index is not where it was opened. -/
  | cannotWrite (name : String)
  /-- The new path and the text of the old one. -/
  | cannotMove (source : String) (new : Path)
  | notADatabase (name : String)
  | newerLayout (name : String) (version : Int)
  | config (file : Path) (error : ConfigError)
  | databaseExists (dir : Path)
  | query (error : Query.QueryError)
  | template (error : TemplateError)
  | unknownStorage (name : String)
  /-- The system refuses. -/
  | disk (error : DiskError)
  /-- A path cannot hold a null character. -/
  | nullInPath
  | linkLoop (path : Path)
  /-- The user has no directory. -/
  | homeless
  /-- The configuration is no text. -/
  | undecodable
  | numeral (error : Number.NumeralError)
deriving DecidableEq

/-- The newest layout of an index. -/
def newestLayout : Int := 1

/-- The name of the storage that is always there. -/
def localStorage : String := "local"

namespace Error

/-- Whether an error is one that a user may bring about, and is told about in a line. -/
def isExpected : Error → Bool
  | template (.unknownConversion _) => false
  | template (.overflow _) => false
  | disk _ => false
  | nullInPath => false
  | linkLoop _ => false
  | homeless => false
  | undecodable => false
  | numeral _ => false
  | _ => true

protected def message : Error → String
  | databaseNotFound start => s!"Could not find any database from {start}"
  | dataFileNotFound file => s!"Database file missing: {file}"
  | fileNotInDatabase file => (UnknownFile.mk file).message
  | pathNotFound file => s!"Can't find file {file}"
  | pathOutside file root => s!"{file} is not inside the database root {root}"
  | cannotCreate dir => s!"Can't create {dir}: {systemErrorText}"
  | cannotOpen name => s!"Can't open {name}: unable to open database file"
  | cannotRead name => s!"Can't open {name}: disk I/O error"
  | cannotWrite name => s!"Can't write to {name}: attempt to write a readonly database"
  | cannotMove source new => s!"Can't move {source} to {new}: {systemErrorText}"
  | notADatabase name =>
    s!"Database is not formatted correctly: {name}: file is not a database"
  | newerLayout name version =>
    s!"{name}: schema version {version} is newer than supported ({newestLayout})"
  | config file error => error.message file
  | databaseExists dir => s!"Can't create a database in {dir}"
  | query error => error.message
  | template error => error.message
  | unknownStorage name =>
    s!"Unknown backend: {quoted name}. No backends registered besides {quoted localStorage}."
  | disk _ => systemErrorText
  | nullInPath => "embedded null byte"
  | linkLoop path => s!"Symlink loop from {quoted path.toString}"
  | homeless => "Could not determine home directory."
  | undecodable => encodingErrorText
  | numeral error => error.message

/-- The error of a configuration in a file. -/
def ofConfig (file : Path) : ConfigError → Error
  | .versionTooLarge => numeral .tooLarge
  | e => config file e

/-- The error of a path that cannot be used. -/
def ofDisk : DiskError → Error
  | .nullCharacter => nullInPath
  | e => disk e

/-- The error of resolving a path. -/
def ofResolve : ResolveError → Error
  | .disk e => ofDisk e
  | .loop p => linkLoop p

end Error

end FileTags
