/-
  Lists of paths, one a line.

  * `readPaths` reads such a list: lines of white space alone are skipped, and carriage returns
    and line feeds at the end of a line do not belong to its path;
  * `readPaths_append`: after a line feed, reading starts afresh.
-/
import FileTags.Path
import FileTags.Text.Blank
import FileTags.Text.Split

namespace FileTags

open Text

/-- The path of a line, if the line has one. -/
def linePath? (line : List Char) : Option Path :=
  if (strip line).isEmpty then none
  else some (Path.ofChars (dropEnd (fun c => c = '\r' || c = '\n') line))

/-- The paths of a text, in their order. -/
def readPaths (text : List Char) : List Path := (lines text).filterMap linePath?

theorem lines_append_lineFeed (cs ds : List Char) :
    lines (cs ++ '\n' :: ds) = lines (cs ++ ['\n']) ++ lines ds := by
  induction cs with
  | nil => simp [lines]
  | cons c cs ih =>
    simp only [List.cons_append, lines, ih]
    split
    · simp
    · cases h : lines (cs ++ ['\n']) with
      | nil =>
        have := flatten_lines (cs ++ ['\n'])
        simp [h] at this
      | cons line rest => simp

theorem readPaths_append (cs ds : List Char) :
    readPaths (cs ++ '\n' :: ds) = readPaths (cs ++ ['\n']) ++ readPaths ds := by
  simp [readPaths, lines_append_lineFeed cs ds]

end FileTags
