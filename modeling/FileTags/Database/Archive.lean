/-
  Indexes as documents, the form in which they outlast the program.

  The document has a member `layout` with the version of the layout, and a table `files` that gives
  each path the texts of its tags.

  * `Index.render` writes an index, `Index.ofTable?` and `Index.ofText?` read one.
-/
import FileTags.Config.Document
import FileTags.Index

namespace FileTags.Index

open Toml

/-! ## Writing -/

/-- The document of an index. -/
def render (layout : Int) (ix : Index) : String :=
  String.ofList <|
    writeMember "layout" (toString layout).toList ++ '\n' :: writeHeader "files" ++
      ix.all.flatMap fun r =>
        writeMember (toString r.path) (writeStrings (r.carried.map toString))

/-! ## Reading -/

/-- An index with the tags of a file. -/
def readFile? (ix : Index) (path : String) (value : Value) : Option Index :=
  (Config.strings? value).map fun texts =>
    texts.foldl (fun ix text => ix.add (Path.ofString path) (Tag.ofString text)) ix

/-- The index in a document, with the version of its layout. -/
def ofTable? (t : Table) : Option (Int × Index) :=
  match t.get? "layout", t.get? "files" with
  | some (.integer layout), some (.table files) =>
    (files.foldlM (fun ix (path, value) => readFile? ix path value) empty).map (layout, ·)
  | _, _ => none

/-- The index in a text. -/
def ofText? (text : String) : Option (Int × Index) :=
  match Toml.parse text.toList with
  | .error _ => none
  | .ok t => ofTable? t

end FileTags.Index
