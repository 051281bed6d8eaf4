/-
  Search expressions, and the records that match them.

  * `Expr` is a condition on one record; `every` holds of all;
  * `Expr.holds` decides it; an attribute condition may leave key or value open;
  * `filterRecords` keeps the records that match, in their order.
-/
import FileTags.Record

namespace FileTags.Query

/-- A condition on the tags and attributes of a file. -/
inductive Expr where
  | every
  | tag (name : String)
  | attr (key value : Option String)
  | and (left right : Expr)
  | or (left right : Expr)
  | not (expr : Expr)
deriving DecidableEq, Inhabited

/-- Whether a record satisfies an expression. -/
def Expr.holds (r : Record) : Expr → Bool
  | every => true
  | tag name => r.hasTag name
  | attr key value => r.hasAttribute key value
  | and left right => left.holds r && right.holds r
  | or left right => left.holds r || right.holds r
  | not expr => !expr.holds r

/-- The records that satisfy an expression. -/
def filterRecords (e : Expr) (records : List Record) : List Record :=
  records.filter (e.holds ·)

end FileTags.Query
