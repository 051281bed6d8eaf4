/-
  Queries as texts.

  * `Query.parse` reads a text as a search expression;
  * `QueryError` says which of the two readings failed.
-/
import FileTags.Query.Parse

namespace FileTags.Query

/-- Why a text is no query. -/
inductive QueryError where
  | lex (error : LexError)
  | parse (error : ParseError)
deriving DecidableEq

protected def QueryError.message : QueryError → String
  | lex error => error.message
  | parse error => error.message

/-- The expression that a text denotes. -/
def parse (text : String) : Except QueryError Expr :=
  match lex text with
  | .error e => .error (.lex e)
  | .ok tokens => (parseTokens tokens).mapError .parse

end FileTags.Query
