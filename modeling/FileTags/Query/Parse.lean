/-
  From tokens to search expressions.

  A query is a chain of units.  Two units side by side must both match, `or` between them lets
  either match, and both operators take the whole rest of the chain as their right operand.
  A unit is a word, an attribute (`key:value`, `key:` or `:value`), a `not` before a unit, or a
  chain in parentheses; a colon before anything but a word stands for nothing.

  The parser reads one token at a time.  Between two tokens it is in a `Stage`, on a stack of
  `Frame`s that wait for their operands: open parentheses, negations, and left operands.

  * `step` is the effect of one token, `finish` that of the end of the input;
  * `parseTokens` runs both; the empty list is the expression that matches everything;
  * `run_append`: reading a list is reading its parts one after the other, so a token that
    cannot be read stays unreadable whatever follows.
-/
import FileTags.Query.Token
import FileTags.Query.Expr

namespace FileTags.Query

/-! ## Errors -/

/-- Why a token list is no query. -/
inductive ParseError where
  /-- The list ends where a unit or a closing parenthesis is missing. -/
  | unexpectedEnd
  /-- No query goes on with this token. -/
  | unexpectedToken (token : Token)
deriving DecidableEq

protected def ParseError.message : ParseError → String
  | unexpectedEnd => "Unexpected end of input"
  | unexpectedToken token => s!"Unexpected token: {token}"

/-! ## States of the parser -/

/-- What waits for the expression that is read next. -/
inductive Frame where
  /-- An open parenthesis, for a chain and its closing parenthesis. -/
  | group
  /-- A `not`, for one unit. -/
  | negation
  /-- A left operand that must match as well as the rest of its chain. -/
  | both (left : Expr)
  /-- A left operand that may match instead of the rest of its chain. -/
  | either (left : Expr)
deriving DecidableEq

/-- What has just been read. -/
inductive Stage where
  /-- Nothing, or something that a unit must follow. -/
  | start
  /-- A word: a tag, or a key if a colon follows. -/
  | word (text : String)
  /-- A key and its colon. -/
  | key (text : String)
  /-- A colon without a key. -/
  | colon
  /-- A unit, with the negations before it applied. -/
  | unit (expr : Expr)
deriving DecidableEq

/-- The parser between two tokens. -/
structure ParseState where
  stage : Stage
  stack : List Frame
deriving DecidableEq

/-- Applies the negations on top of the stack to a finished unit. -/
def negate : Expr → List Frame → Expr × List Frame
  | e, .negation :: stack => negate (.not e) stack
  | e, stack => (e, stack)

/-- The parser after a finished unit. -/
def afterUnit (e : Expr) (stack : List Frame) : ParseState :=
  ⟨.unit (negate e stack).1, (negate e stack).2⟩

/-- Closes a chain: its last unit with the left operands on top of the stack. -/
def gather : Expr → List Frame → Expr × List Frame
  | e, .both left :: stack => gather (.and left e) stack
  | e, .either left :: stack => gather (.or left e) stack
  | e, stack => (e, stack)

/-! ## Steps -/

/-- The effect of a token where a unit must start. -/
def stepStart (stack : List Frame) : Token → Except ParseError ParseState
  | .word text => .ok ⟨.word text, stack⟩
  | .colon => .ok ⟨.colon, stack⟩
  | .not => .ok ⟨.start, .negation :: stack⟩
  | .startParen => .ok ⟨.start, .group :: stack⟩
  | .or => .error (.unexpectedToken .or)
  | .endParen => .error (.unexpectedToken .endParen)

/-- The effect of a token after a unit: the chain ends, or an operator follows, which is left
    out between two units that must both match. -/
def stepUnit (e : Expr) (stack : List Frame) : Token → Except ParseError ParseState
  | .endParen =>
    match gather e stack with
    | (chain, .group :: rest) => .ok (afterUnit chain rest)
    | _ => .error (.unexpectedToken .endParen)
  | .or => .ok ⟨.start, .either e :: stack⟩
  | token => stepStart (.both e :: stack) token

/-- The effect of a token that does not belong to the unit before it. -/
def stepAfter (e : Expr) (stack : List Frame) (token : Token) : Except ParseError ParseState :=
  stepUnit (negate e stack).1 (negate e stack).2 token

/-- The effect of one token. -/
def step (state : ParseState) (token : Token) : Except ParseError ParseState :=
  match state.stage, token with
  | .start, token => stepStart state.stack token
  | .word text, .colon => .ok ⟨.key text, state.stack⟩
  | .word text, token => stepAfter (.tag text) state.stack token
  | .key text, .word value => .ok (afterUnit (.attr (some text) (some value)) state.stack)
  | .key text, token => stepAfter (.attr (some text) none) state.stack token
  | .colon, .word value => .ok (afterUnit (.attr none (some value)) state.stack)
  | .colon, token => stepStart state.stack token
  | .unit e, token => stepUnit e state.stack token

/-- The effect of a list of tokens. -/
def run (state : ParseState) : List Token → Except ParseError ParseState
  | [] => .ok state
  | token :: tokens => (step state token).bind (run · tokens)

/-- The unit that the last tokens make up, if they do, with what waits for it. -/
def lastUnit? (state : ParseState) : Option (Expr × List Frame) :=
  match state.stage with
  | .start => none
  | .word text => some (negate (.tag text) state.stack)
  | .key text => some (negate (.attr (some text) none) state.stack)
  | .colon => none
  | .unit e => some (e, state.stack)

/-- The effect of the end of the input. -/
def finish (state : ParseState) : Except ParseError Expr :=
  match lastUnit? state with
  | none => .error .unexpectedEnd
  | some (e, stack) =>
    match gather e stack with
    | (chain, []) => .ok chain
    | _ => .error .unexpectedEnd

/-- The parser before the first token. -/
def initial : ParseState := ⟨.start, []⟩

/-- The expression that a token list denotes. -/
def parseTokens : List Token → Except ParseError Expr
  | [] => .ok .every
  | tokens => (run initial tokens).bind finish

theorem run_append (state : ParseState) (tokens more : List Token) :
    run state (tokens ++ more) = (run state tokens).bind (run · more) := by
  induction tokens generalizing state with
  | nil => rfl
  | cons token tokens ih =>
    simp only [List.cons_append, run]
    cases step state token with
    | error e => rfl
    | ok next => exact ih next

end FileTags.Query
