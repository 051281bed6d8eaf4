/-
  Configurations as documents.

  A configuration is a TOML document with the members `version`, `whitelist`, `blacklist` and
  `aliases`, all of which may be missing; other members are ignored.  An alias may be given by a
  single string instead of a list.

  * `Config.ofTable` reads a configuration or says what is wrong with a document;
  * `Config.render` writes one.
-/
import FileTags.Config
import FileTags.Toml.Display
import FileTags.Toml.Writer

namespace FileTags

open Toml

/-- Why a document is no configuration. -/
inductive ConfigError where
  | malformed
  | newerVersion (shown : String)
  /-- The version is newer, and cannot be shown. -/
  | versionTooLarge
  | notStrings (key : String)
  | aliasesNotTable
  | aliasNotStrings (name : String)
deriving DecidableEq

/-- The words that stand for what the reader of documents says. -/
def documentErrorText : String := "<toml error>"

/-- What is wrong with the configuration in a file. -/
protected def ConfigError.message (file : Path) : ConfigError → String
  | malformed => s!"{file}: {documentErrorText}"
  | newerVersion shown =>
    s!"Config version {shown} is newer than supported ({Version.newest})"
  | versionTooLarge => Number.NumeralError.tooLarge.message
  | notStrings key => s!"{file}: '{key}' must be a list of strings"
  | aliasesNotTable => s!"{file}: 'aliases' must be a table"
  | aliasNotStrings name => s!"{file}: alias '{name}' must be a list of strings"

namespace Config

/-! ## Reading -/

/-- The strings of a value, if it is an array of strings. -/
def strings? : Value → Option (List String)
  | .array items => items.mapM fun
    | .string s => some s
    | _ => none
  | _ => none

/-- The error of a version that is not supported. -/
def versionError (value : Value) : ConfigError :=
  if value.isDisplayable then .newerVersion value.display else .versionTooLarge

/-- The version of a document. -/
def readVersion (t : Table) : Except ConfigError Version :=
  match t.get? "version" with
  | none => .ok (.number Version.newest)
  | some (.boolean b) => .ok (.flag b)
  | some (.integer n) =>
    if n ≤ Version.newest then .ok (.number n) else .error (versionError (.integer n))
  | some value => .error (versionError value)

/-- A list of names in a document, if it is there. -/
def readNames (t : Table) (key : String) : Except ConfigError (Option (List String)) :=
  match t.get? key with
  | none => .ok none
  | some value =>
    match strings? value with
    | some names => .ok (some (nameSet names))
    | none => .error (.notStrings key)

/-- What one alias stands for. -/
def readAlias (name : String) : Value → Except ConfigError (String × List String)
  | .string s => .ok (name, [s])
  | value =>
    match strings? value with
    | some tags => .ok (name, tags)
    | none => .error (.aliasNotStrings name)

/-- The aliases of a document. -/
def readAliases (t : Table) : Except ConfigError (List (String × List String)) :=
  match t.get? "aliases" with
  | none => .ok []
  | some (.table members) => members.mapM fun (name, value) => readAlias name value
  | some _ => .error .aliasesNotTable

/-- The configuration that a document holds; the first fault counts. -/
def ofTable (t : Table) : Except ConfigError Config := do
  let version ← readVersion t
  let whitelist ← readNames t "whitelist"
  let blacklist ← readNames t "blacklist"
  let aliases ← readAliases t
  return { whitelist, blacklist, aliases, version }

/-! ## Writing -/

/-- A version as a value. -/
def writeVersion : Version → List Char
  | .number n => (toString n).toList
  | .flag b => (toString b).toList

/-- A list of names, if it is there. -/
def writeNames (key : String) (names : Option (List String)) : List Char :=
  names.elim [] fun names => writeMember key (writeStrings (nameSet names))

/-- The document of a configuration. -/
def render (c : Config) : String :=
  String.ofList <|
    writeMember "version" (writeVersion c.version) ++ writeNames "whitelist" c.whitelist ++
      writeNames "blacklist" c.blacklist ++ '\n' :: writeHeader "aliases" ++
      c.aliases.flatMap fun (name, tags) => writeMember name (writeStrings tags)

end Config

end FileTags
