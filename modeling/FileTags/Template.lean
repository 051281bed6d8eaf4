/-
  New file names from templates.

  A placeholder stands for the smallest value of the file under its name, converted if it asks
  for a conversion and written by its format specification.  The name that results is relative to
  the directory of the file.

  * `fill` fills in a template for a record;
  * `renamedPath` is the path that a file gets;
  * `TemplateError` says why a template cannot be filled in.
-/
import FileTags.Template.Piece
import FileTags.Format.Value
import FileTags.Record

namespace FileTags

open Text Format

/-- Why a template cannot be filled in. -/
inductive TemplateError where
  | malformed (template : String) (error : Template.BraceError)
  | emptyPlaceholder (template : String)
  | noAttribute (path : Path) (name : String)
  | cannotFormat (name value spec : String) (fault : Fault)
  | unknownConversion (conversion : Char)
  | overflow (cause : Overflow)
deriving DecidableEq

protected def TemplateError.message : TemplateError → String
  | malformed template error => s!"Invalid template {quoted template}: {error.message}"
  | emptyPlaceholder template => s!"Invalid template {quoted template}: empty placeholder"
  | noAttribute path name => s!"{path} has no attribute {quoted name}"
  | cannotFormat name value spec fault =>
    s!"Can't format {name}={quoted value} with {quoted spec}: {fault.message}"
  | unknownConversion conversion => s!"Unknown conversion specifier {conversion}"
  | overflow cause => cause.message

namespace Template

/-- A value after a conversion: `s` leaves it, `r` and `a` put it in quotes. -/
def convert (conversion : Option Char) (value : String) : Except TemplateError String :=
  match conversion with
  | none => .ok value
  | some 's' => .ok value
  | some 'r' => .ok (quoted value)
  | some 'a' => .ok (quotedAscii value)
  | some c => .error (.unknownConversion c)

/-- A value written by a format specification, for the placeholder of a name. -/
def present (name value : String) (spec : List Char) : Except TemplateError (List Char) :=
  match formatField spec value.toList with
  | .ok out => .ok out
  | .error (.fault e) => .error (.cannotFormat name value (String.ofList spec) e)
  | .error (.overflow e) => .error (.overflow e)

/-- What stands for a placeholder in a template. -/
def fillPlaceholder (template : String) (r : Record) (p : Placeholder) :
    Except TemplateError (List Char) :=
  if p.name.isEmpty then .error (.emptyPlaceholder template)
  else
    let name := String.ofList p.name
    match r.first? name with
    | none => .error (.noAttribute r.path name)
    | some value => (convert p.conversion value).bind (present name · p.spec)

/-- What stands for some pieces of a template. -/
def fillPieces (template : String) (r : Record) : List Piece → Except TemplateError (List Char)
  | [] => .ok []
  | .char c :: ps => (fillPieces template r ps).map (c :: ·)
  | .placeholder p :: ps =>
    match fillPlaceholder template r p with
    | .error e => .error e
    | .ok out => (fillPieces template r ps).map (out ++ ·)

/-- A template filled in for a record. -/
def fill (r : Record) (template : String) : Except TemplateError String :=
  match pieces template.toList with
  | .error e => .error (.malformed template e)
  | .ok ps => (fillPieces template r ps).map String.ofList

/-- The path that a file at `current` gets: the filled-in template, seen from its directory. -/
def renamedPath (current : Path) (r : Record) (template : String) : Except TemplateError Path :=
  (fill r template).map fun name => current.parent.join (Path.ofString name)

end Template

end FileTags
