/-
  Records as texts, in three forms.

  * plain: one path a line;
  * descriptive: the path, a line `key: value` for each attribute, a line `- tag` for each tag,
    and an empty line;
  * JSON: an array of objects with the members path, tags and attributes.

  Paths are shown as they are, or from a directory `root` if one is given.
-/
import FileTags.Record
import FileTags.Text.Json

namespace FileTags

open Text

/-- The form of a report. -/
inductive ReportForm where
  | plain
  | descriptive
  | json
deriving DecidableEq

namespace Record

/-- The path of a record, seen from a directory if one is given. -/
def displayPath (root : Option Path) (r : Record) : Path :=
  root.elim r.path (·.join r.path)

/-- The lines of a record's description. -/
def descriptionLines (root : Option Path) (r : Record) : List String :=
  toString (r.displayPath root) ::
    r.sortedAttributes.map (fun (key, value) => key ++ ": " ++ value) ++
    r.sortedTags.map ("- " ++ ·) ++ [""]

/-- A record as a JSON object. -/
def toJson (root : Option Path) (r : Record) : Json :=
  .object [
    ("path", .string (toString (r.displayPath root))),
    ("tags", .array (r.sortedTags.map .string)),
    ("attributes", .array (r.sortedAttributes.map fun (key, value) =>
      .array [.string key, .string value]))]

end Record

/-- Lines with a line feed between neighbours. -/
def joinLines (lines : List String) : String := "\n".intercalate lines

/-- The text of a report. -/
def report (form : ReportForm) (root : Option Path) (records : List Record) : String :=
  match form with
  | .plain => joinLines (records.map (toString <| ·.displayPath root))
  | .descriptive => joinLines (records.map (joinLines <| ·.descriptionLines root))
  | .json => (Json.array (records.map (·.toJson root))).render

end FileTags
