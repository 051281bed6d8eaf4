/-
  Running a command line.

  * `run` reads a command line and does what it says; an error that nobody foresaw goes to the log
    of the database in use, and the user is told where it is;
  * `Result` is what there is to show: output, notices and an exit status.
-/
import FileTags.Command.Perform
import FileTags.ErrorLog

namespace FileTags

/-- How a command line ends. -/
inductive Ending where
  | done
  | failed
  /-- The command line asks for nothing that there is. -/
  | misused
deriving DecidableEq

/-- The exit status. -/
def Ending.status : Ending → Nat
  | done => 0
  | failed => 1
  | misused => 2

/-- What there is to show after a command line. -/
structure Result where
  settings : Settings
  output : String := ""
  notices : List Notice := []
  renamed : List (Path × Path) := []
  ending : Ending

/-- The text of the notices that are shown. -/
def Result.noticeText (r : Result) : String :=
  String.join ((r.notices.filter (·.shown r.settings.level)).map Notice.text)

/-- The answer to the question for the version. -/
def versionLine : String := "sea-serpent 0.3.0\n"

/-- What is said about a log entry. -/
def runContext : String := "sea-serpent CLI"

/-- The database directory that the settings name. -/
def Setup.givenDatabase (s : Setup) (d : Disk) : Except Error (Option Path) :=
  match s.settings.database with
  | none => .ok none
  | some p => (databaseDir d p).map some

/-- Logs an error that nobody foresaw. -/
def Setup.logFault (s : Setup) (d : Disk) (e : Error) : Disk × Except Error Path :=
  match s.givenDatabase d with
  | .error e => (d, .error e)
  | .ok given => logError d s.env given s.clock.exact runContext (e.message ++ "\n")

/-- Ends a command. There is no result if not even the place of the log can be found. -/
def Setup.finish (s : Setup) (effect : Effect) : Disk × Except Error Result :=
  match effect.fault with
  | none =>
    (effect.disk, .ok ⟨s.settings, effect.output, effect.notices, effect.renamed,
      if effect.failed then .failed else .done⟩)
  | some e =>
    match s.logFault effect.disk e with
    | (d, .error e) => (d, .error e)
    | (d, .ok log) =>
      (d, .ok ⟨s.settings, effect.output, effect.notices ++ [.failure e, .logged log],
        effect.renamed, .failed⟩)

/-- Does what a command line asks for. -/
def Request.run (request : Request) (d : Disk) (env : Environment) (clock : Clock)
    (input : String) : Disk × Except Error Result :=
  let s : Setup := ⟨env, request.settings, clock, input⟩
  match request.command with
  | .error .misused => (d, .ok { settings := s.settings, ending := .misused })
  | .error .version => (d, .ok { settings := s.settings, output := versionLine, ending := .done })
  | .ok command => s.finish (command.perform s d)

/-- Runs a command line. -/
def run (d : Disk) (env : Environment) (clock : Clock) (arguments : List String)
    (input : String) : Disk × Except Error Result :=
  (Request.ofArguments env arguments).run d env clock input

end FileTags
