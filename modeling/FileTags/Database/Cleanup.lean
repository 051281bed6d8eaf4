/-
  Cleaning up a database: files that are gone are forgotten, and tags that the configuration no
  longer allows are removed.

  * `Database.cleanup` does both and counts what it removes;
  * `Record.disallowed` are the tags of a record that are not allowed.
-/
import FileTags.Database.Tagging

namespace FileTags

/-- How much a cleanup has removed. -/
structure CleanupStats where
  files : Nat
  tags : Nat
deriving DecidableEq

/-- The tags of a record that a configuration does not allow, words first. -/
def Record.disallowed (r : Record) (c : Config) : List Tag := r.carried.filter (!c.allowsTag ·)

namespace Database

/-- Forgets a file. -/
def forget (db : Database) (file : Path) : Database :=
  { db with index := db.index.discard file }.record (.forgot file)

/-- Removes a tag that is no longer allowed. -/
def drop (db : Database) (file : Path) (t : Tag) : Database :=
  { db with index := db.index.remove file t }.record (.dropped t file)

/-- Forgets those of some files that are gone, and counts them. -/
def forgetMissing (d : Disk) : List Path → Database → Outcome Nat
  | [], db => (.ok 0, db)
  | file :: files, db =>
    match d.present (db.absolutePath file) with
    | .error e => (.error (.ofDisk e), db)
    | .ok true => forgetMissing d files db
    | .ok false =>
      match forgetMissing d files (db.forget file) with
      | (.ok n, db) => (.ok (n + 1), db)
      | (.error e, db) => (.error e, db)

/-- The tags that are not allowed, each with its file. -/
def disallowed (db : Database) : List (Path × Tag) :=
  db.index.all.flatMap fun r => (r.disallowed db.config).map (r.path, ·)

/-- Removes the tags that are not allowed. -/
def dropDisallowed (db : Database) : Database :=
  db.disallowed.foldl (fun db (file, t) => db.drop file t) db

/-- Cleans up the database. -/
def cleanup (d : Disk) (db : Database) : Outcome CleanupStats :=
  match forgetMissing d (db.index.all.map (·.path)) db with
  | (.error e, db) => (.error e, db)
  | (.ok files, db) => (.ok ⟨files, db.disallowed.length⟩, db.dropDisallowed)

end Database

end FileTags
