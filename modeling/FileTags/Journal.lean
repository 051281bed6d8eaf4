/-
  What is recorded about changes to a database.

  * `Event` is something that happened, `Event.level` says how severe it is and `Event.message`
    words it;
  * `Event.line` is the line of an event in the log of operations;
  * `Index.replay` repeats on an index what events tell about it.
-/
import FileTags.Index
import FileTags.LogLevel
import FileTags.Error

namespace FileTags

open Text

/-- Something that happened to a database. -/
inductive Event where
  | added (tag : Tag) (file : Path)
  | removed (tag : Tag) (file : Path)
  /-- None of the tags that a text stands for may be written. -/
  | refused (raw : String)
  /-- A file that is gone is forgotten. -/
  | forgot (file : Path)
  /-- A tag that is no longer allowed is removed. -/
  | dropped (tag : Tag) (file : Path)
  | moved (old new : Path)
  /-- The log of operations cannot be written. -/
  | unlogged (file : Path)
deriving DecidableEq

namespace Event

/-- How severe an event is. -/
def level : Event → LogLevel
  | refused _ => .warning
  | unlogged _ => .warning
  | _ => .info

protected def message : Event → String
  | added tag file => s!"Added {tag} to {file}"
  | removed tag file => s!"Removed {tag} from {file}"
  | refused raw => s!"Tag {quoted raw} is not allowed by the database config"
  | forgot file => s!"Removing {file} from database"
  | dropped tag file => s!"Removing {tag} from {file}"
  | moved old new => s!"Moved {old} to {new}"
  | unlogged file => s!"Can't open operations log {file}: {systemErrorText}"

/-- An event as a line, with its level in front. -/
def line (e : Event) : String := e.level.label ++ " " ++ e.message ++ "\n"

end Event

/-! ## Replaying -/

/-- The index after an event that changed it. -/
def Index.apply (ix : Index) : Event → Index
  | .added tag file => ix.add file tag
  | .removed tag file => ix.remove file tag
  | .dropped tag file => ix.remove file tag
  | .forgot file => ix.discard file
  | .moved old new => (ix.move old new).toOption.getD ix
  | .refused _ => ix
  | .unlogged _ => ix

/-- The index after some events. -/
def Index.replay (ix : Index) (events : List Event) : Index := events.foldl Index.apply ix

end FileTags
