/-
  Levels of messages: which ones are shown.

  * `LogLevel.severity` is the number of a level: a message is shown if it is as severe as the
    level that is set;
  * `LogLevel.ofName` finds a level by its name, without regard to case.
-/
import FileTags.Text.Quoted

namespace FileTags

open Text

/-- How severe a message is, or the least severity that is shown. -/
inductive LogLevel where
  | debug
  | info
  | warning
  | error
  /-- Above all messages. -/
  | off
deriving DecidableEq

namespace LogLevel

/-- The severity of a level. -/
def severity : LogLevel → Nat
  | debug => 10
  | info => 20
  | warning => 30
  | error => 40
  | off => 60

/-- Whether a message of level `message` is shown where level `set` is set. -/
def shows (set message : LogLevel) : Bool := set.severity ≤ message.severity

/-- The word in front of a message. -/
def label : LogLevel → String
  | debug => "DEBUG"
  | info => "INFO"
  | warning => "WARNING"
  | error => "ERROR"
  | off => "OFF"

/-- The level that shows what is worth a warning, or all that is worth knowing. -/
def ofQuiet (quiet : Bool) : LogLevel := if quiet then warning else info

/-- The names of levels. -/
def names : List (String × LogLevel) :=
  [("off", off), ("error", error), ("warn", warning), ("warning", warning), ("info", info),
    ("debug", debug), ("trace", debug)]

/-- The only fault of a name: no level has it. -/
structure UnknownName where
  name : String
deriving DecidableEq

protected def UnknownName.message (e : UnknownName) : String :=
  s!"Unknown log level {quoted e.name}. Use one of: " ++ ", ".intercalate (names.map (·.1))

/-- The level with a name. Only ASCII letters have the letters of the names as their small
    forms. -/
def ofName (name : String) : Except UnknownName LogLevel :=
  match names.lookup name.toLower with
  | some level => .ok level
  | none => .error ⟨name⟩

end LogLevel

end FileTags
