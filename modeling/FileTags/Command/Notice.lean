/-
  What a command tells beside its output.

  * `Notice` is something to tell: an event of a database, an error, or where an error is logged;
  * `Notice.isComplaint` picks out the notices that make a command fail;
  * `echo` is a text as a line of output.
-/
import FileTags.Database.Basic
import FileTags.Text.Style

namespace FileTags

open Text

/-- A text as a line of output that does not go to a terminal. -/
def echo (text : String) : String := String.ofList (dropStyles text.toList) ++ "\n"

/-- Something to tell. -/
inductive Notice where
  | event (e : Event)
  | failure (e : Error)
  /-- No files are left to work on. -/
  | nothingSelected
  /-- The error before is in a log. -/
  | logged (log : Path)
deriving DecidableEq

namespace Notice

/-- Whether a notice says that something was not done. -/
def isComplaint : Notice → Bool
  | event _ => false
  | failure _ => true
  | nothingSelected => true
  | logged _ => false

/-- Whether a notice is shown where a level of messages is set, which is about events alone. -/
def shown (level : LogLevel) : Notice → Bool
  | event e => level.shows e.level
  | _ => true

protected def text : Notice → String
  | event e => e.line
  | failure e => echo s!"Error: {e.message}"
  | nothingSelected => echo "Error: No files selected"
  | logged log => echo s!"Details logged to {log}"

end Notice

/-- The events of a database's journal that can be told: those of a database with a log, on demand
    all, and otherwise those that are at least warnings. -/
def Database.notices (db : Database) (debug : Bool) : List Notice :=
  (db.journal.filter fun e => debug || db.log.isSome || LogLevel.warning.shows e.level).map .event

/-- Events are no complaints. -/
theorem Database.isComplaint_of_mem_notices {db : Database} {debug : Bool} {n : Notice}
    (told : n ∈ db.notices debug) : n.isComplaint = false := by
  obtain ⟨event, -, rfl⟩ := List.mem_map.1 told
  rfl

end FileTags
