/-
  Commands, and how they are written.

  A command line holds settings, the name of a command, and the arguments of the command.

  * `Command` is a command with what it needs, and `Command.ofArguments` reads one;
  * `Request.ofArguments` reads a whole command line.
-/
import FileTags.Command.Settings
import FileTags.Number.Integral
import FileTags.Selection

namespace FileTags

open Arguments Text

/-! ## Commands -/

/-- The files that a command works on. -/
structure FileArguments where
  paths : List Path
  options : SelectOptions
  /-- Whether more paths are read from the input. -/
  fromInput : Bool
deriving DecidableEq

/-- The paths that a command is given, by hand and in the text of the input. -/
def FileArguments.allPaths (files : FileArguments) (input : String) : List Path :=
  files.paths ++ if files.fromInput then readPaths input.toList else []

/-- How a search is reported. -/
structure SearchOptions where
  json : Bool
  descriptive : Bool
  /-- The attribute to sort by, unless it is empty. -/
  sortKey : String
  limit : Option Nat
  absolute : Bool
deriving DecidableEq

/-- A command with all that it needs. -/
inductive Command where
  | init
  | add (tags : List String) (files : FileArguments)
  | remove (tags : List String) (files : FileArguments)
  | cleanup
  | info (files : FileArguments)
  | rename (template : String) (files : FileArguments)
  | search (query : String) (options : SearchOptions)
deriving DecidableEq

/-- The options of commands. -/
inductive CommandOption where
  | tag
  | files
  | recursive
  | excludeDirs
  | excludeFiles
  | fromInput
  | template
  | json
  | info
  | sortBy
  | limit
  | absolutePath
deriving DecidableEq

/-- How the options that choose files are written. -/
def fileFlags : List (Flag CommandOption) :=
  [⟨.files, some 'f', some "files", true⟩, ⟨.recursive, some 'r', some "recursive", false⟩,
    ⟨.excludeDirs, none, some "exclude-dirs", false⟩,
    ⟨.excludeFiles, none, some "exclude-files", false⟩,
    ⟨.fromInput, none, some "stdin", false⟩]

/-- How a tag is given. -/
def tagFlag : Flag CommandOption := ⟨.tag, some 't', some "tag", true⟩

/-- How a template is given. -/
def templateFlag : Flag CommandOption := ⟨.template, none, some "template", true⟩

/-- How the options of a search are written. -/
def searchFlags : List (Flag CommandOption) :=
  [⟨.json, none, some "json", false⟩, ⟨.info, none, some "info", false⟩,
    ⟨.sortBy, none, some "sort-by", true⟩, ⟨.limit, some 'n', some "limit", true⟩,
    ⟨.absolutePath, none, some "absolute-path", false⟩]

/-- The kinds of paths that are selected; leaving out directories goes first. -/
def takeFilter (arguments : List (Argument CommandOption)) : KindFilter :=
  if given .excludeDirs arguments then .files
  else if given .excludeFiles arguments then .folders
  else .all

/-- The files of a command. -/
def takeFiles (arguments : List (Argument CommandOption)) : Except Stop FileArguments :=
  (operands arguments ++ values .files arguments).mapM takePath |>.map
    fun paths =>
      ⟨paths, ⟨given .recursive arguments, takeFilter arguments⟩,
        given .fromInput arguments⟩

/-- A limit: an integer that is not negative. -/
def takeLimit (text : String) : Except Stop Nat :=
  match Number.readIntegral? text.toList with
  | some (.ofNat n) => .ok n
  | _ => .error .misused

namespace Command

/-- The arguments of a command, read with the options that it takes. -/
def takeArguments (table : List (Flag CommandOption)) (texts : List String) :
    Except Stop (List (Argument CommandOption)) :=
  (scan table true none texts).elim (.error .misused) .ok

/-- A command without arguments. -/
def takeNothing (command : Command) (texts : List String) : Except Stop Command := do
  let arguments ← takeArguments [] texts
  if (operands arguments).isEmpty then .ok command else .error .misused

/-- A command that works on files with the tags that are given, of which there must be one. -/
def takeTagged (make : List String → FileArguments → Command) (texts : List String) :
    Except Stop Command := do
  let arguments ← takeArguments (tagFlag :: fileFlags) texts
  let files ← takeFiles arguments
  match values .tag arguments with
  | [] => .error .misused
  | tags => .ok (make tags files)

/-- A search. -/
def takeSearch (texts : List String) : Except Stop Command := do
  let arguments ← takeArguments searchFlags texts
  let limit ← (last? .limit arguments).mapM takeLimit
  return .search (" ".intercalate (operands arguments))
    { json := given .json arguments
      descriptive := given .info arguments
      sortKey := (last? .sortBy arguments).getD ""
      limit
      absolute := given .absolutePath arguments }

/-- The command with a name, read from its arguments; not every name is one of a command. -/
def ofArguments (name : String) (texts : List String) : Option (Except Stop Command) :=
  match name with
  | "init" => some (takeNothing .init texts)
  | "add" => some (takeTagged .add texts)
  | "remove" => some (takeTagged .remove texts)
  | "cleanup" => some (takeNothing .cleanup texts)
  | "info" => some do return .info (← takeFiles (← takeArguments fileFlags texts))
  | "rename" => some do
    let arguments ← takeArguments (templateFlag :: fileFlags) texts
    let files ← takeFiles arguments
    match last? .template arguments with
    | none => .error .misused
    | some template => .ok (.rename template files)
  | "search" => some (takeSearch texts)
  | _ => none

end Command

/-- The files that a command works on, if it works on files. -/
def Command.files? : Command → Option FileArguments
  | .add _ files => some files
  | .remove _ files => some files
  | .info files => some files
  | .rename _ files => some files
  | _ => none

/-! ## Command lines -/

/-- What a command line asks for, with the settings as far as they are read. -/
structure Request where
  settings : Settings
  command : Except Stop Command

/-- Whether a command line is about the text of the input. -/
def Request.readsInput (request : Request) : Bool :=
  match request.command with
  | .ok command => command.files?.any (·.fromInput)
  | .error _ => false

/-- Reads a command line. What stands where a command should and is none may still be a setting
    that ends the program. -/
def Request.ofArguments (env : Environment) (texts : List String) : Request :=
  match readSettings env texts (.ofEnvironment env) with
  | (s, .error stop) => ⟨s, .error stop⟩
  | (s, .ok []) => ⟨s, .error .misused⟩
  | (s, .ok (name :: rest)) =>
    match Command.ofArguments name rest with
    | some command => ⟨s, command⟩
    | none =>
      match readSettings env (name :: rest) s with
      | (s, .error stop) => ⟨s, .error stop⟩
      | (s, .ok _) => ⟨s, .error .misused⟩

end FileTags
