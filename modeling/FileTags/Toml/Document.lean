/-
  TOML documents.

  A document is a list of lines.  A line sets a member of the current table, or opens a table or
  a new element of an array of tables.  A dotted key leads through tables and makes those that are
  missing.  Nothing is named twice: a value cannot be replaced, what is written between brackets
  or braces cannot be added to, and a table has one header.

  * `parse` reads a document as a table;
  * `value` reads a value, `Scope` knows what is named, and `statements` goes through the lines.
-/
import FileTags.Toml.Scalar
import FileTags.Text.Split

namespace FileTags.Toml

open Text

/-- A key with its parts. -/
abbrev Key := List String

/-! ## White space and comments -/

/-- What follows the white space on a line. -/
def skipSpaces (cs : List Char) : List Char := cs.dropWhile isSpace

/-- What follows a comment on a line, if there is one. -/
def skipComment : List Char → Except ReadError (List Char)
  | '#' :: cs =>
    let comment := cs.takeWhile (· ≠ '\n')
    if comment.any isControl then .error .malformed else .ok (cs.drop comment.length)
  | cs => .ok cs

/-- What follows white space, line feeds and comments; the number of comments is limited. -/
def skipGaps : Nat → List Char → Except ReadError (List Char)
  | 0, cs => .ok cs
  | budget + 1, cs =>
    match skipComment (cs.dropWhile isGap) with
    | .error e => .error e
    | .ok rest => if rest.length = cs.length then .ok rest else skipGaps budget rest

/-! ## Keys -/

/-- The characters of a key without quotes. -/
def isBare (c : Char) : Bool := c.isAlphanum || c = '-' || c = '_'

/-- One part of a key. -/
def keyPart (cs : List Char) : Read String :=
  match cs.takeWhile isBare with
  | [] => (lineString cs).map fun (name, rest) => (String.ofList name, rest)
  | bare => .ok (String.ofList bare, cs.drop bare.length)

/-- A key with at most so many parts, and what follows the white space after it. -/
def key : Nat → List Char → Read Key
  | 0, _ => .error .malformed
  | budget + 1, cs =>
    match keyPart cs with
    | .error e => .error e
    | .ok (part, rest) =>
      match skipSpaces rest with
      | '.' :: more =>
        match key budget (skipSpaces more) with
        | .error e => .error e
        | .ok (parts, rest) => .ok (part :: parts, rest)
      | rest => .ok ([part], rest)

/-! ## Nested tables -/

/-- A change to the table that a key leads to; tables that are missing on the way are made. A way
    through an array of tables leads through its last element, if `throughArrays` allows it. -/
def inTable (throughArrays : Bool) (change : Table → Except ReadError Table) :
    Key → Table → Except ReadError Table
  | [], t => change t
  | k :: ks, t =>
    match t.get? k with
    | none => (inTable throughArrays change ks []).map fun sub => t.set k (.table sub)
    | some (.table sub) =>
      (inTable throughArrays change ks sub).map fun sub => t.set k (.table sub)
    | some (.array items) =>
      match throughArrays, items.getLast? with
      | true, some (.table sub) =>
        (inTable throughArrays change ks sub).map fun sub =>
          t.set k (.array (items.dropLast ++ [.table sub]))
      | _, _ => .error .malformed
    | some _ => .error .malformed

/-- A table with one more member. -/
def addMember (k : String) (v : Value) (t : Table) : Except ReadError Table :=
  if (t.get? k).isSome then .error .malformed else .ok (t.set k v)

/-- A table with one more element in an array of tables. -/
def addElement (k : String) (t : Table) : Except ReadError Table :=
  match t.get? k with
  | none => .ok (t.set k (.array [.table []]))
  | some (.array items) => .ok (t.set k (.array (items ++ [.table []])))
  | some _ => .error .malformed

/-- A table with a member that a key leads to. -/
def addAt (throughArrays : Bool) (k : Key) (v : Value) (t : Table) : Except ReadError Table :=
  match k.getLast? with
  | none => .error .malformed
  | some last => inTable throughArrays (addMember last v) k.dropLast t

/-! ## Values -/

/-- Whether a key is one of some keys or leads on from one. -/
def isUnder (closed : List Key) (k : Key) : Bool := closed.any (·.isPrefixOf k)

mutual

/-- A value, with brackets and braces nested to a limited depth and length. -/
def value : Nat → List Char → Read Value
  | 0, _ => .error .malformed
  | budget + 1, cs =>
    match cs with
    | '"' :: _ => (quotedString cs).map fun (s, rest) => (.string (String.ofList s), rest)
    | '\'' :: _ => (quotedString cs).map fun (s, rest) => (.string (String.ofList s), rest)
    | 't' :: 'r' :: 'u' :: 'e' :: rest => .ok (.boolean true, rest)
    | 'f' :: 'a' :: 'l' :: 's' :: 'e' :: rest => .ok (.boolean false, rest)
    | '[' :: cs =>
      match skipGaps cs.length cs with
      | .error e => .error e
      | .ok cs => arrayItems budget cs
    | '{' :: cs =>
      match skipSpaces cs with
      | '}' :: rest => .ok (.table [], rest)
      | cs => inlineMembers budget [] [] cs
    | cs =>
      match moment? cs, number? cs, special? cs with
      | some (moment, rest), _, _ => moment.map (·, rest)
      | none, some (number, rest), _ => number.map (·, rest)
      | none, none, some read => .ok read
      | none, none, none => .error .malformed

/-- The items of an array up to its closing bracket. -/
def arrayItems : Nat → List Char → Read Value
  | 0, _ => .error .malformed
  | budget + 1, cs =>
    match cs with
    | ']' :: rest => .ok (.array [], rest)
    | cs =>
      match value budget cs with
      | .error e => .error e
      | .ok (item, cs) =>
        match skipGaps cs.length cs with
        | .error e => .error e
        | .ok (']' :: rest) => .ok (.array [item], rest)
        | .ok (',' :: cs) =>
          match skipGaps cs.length cs with
          | .error e => .error e
          | .ok cs =>
            match arrayItems budget cs with
            | .ok (.array items, rest) => .ok (.array (item :: items), rest)
            | .ok (_, _) => .error .malformed
            | .error e => .error e
        | .ok _ => .error .malformed

/-- The members of a table in braces up to its closing brace, after the members `read`; those at
    the keys `closed` cannot be added to. -/
def inlineMembers : Nat → List Key → Table → List Char → Read Value
  | 0, _, _, _ => .error .malformed
  | budget + 1, closed, read, cs =>
    match pair budget cs with
    | .error e => .error e
    | .ok ((k, v), cs) =>
      if isUnder closed k then .error .malformed
      else match addAt false k v read with
        | .error e => .error e
        | .ok read =>
          match skipSpaces cs with
          | '}' :: rest => .ok (.table read, rest)
          | ',' :: cs =>
            inlineMembers budget (if v.isContainer then k :: closed else closed) read
              (skipSpaces cs)
          | _ => .error .malformed

/-- A key with its value. -/
def pair : Nat → List Char → Read (Key × Value)
  | 0, _ => .error .malformed
  | budget + 1, cs =>
    match key cs.length cs with
    | .error e => .error e
    | .ok (k, '=' :: cs) =>
      match value budget (skipSpaces cs) with
      | .error e => .error e
      | .ok (v, rest) => .ok ((k, v), rest)
    | .ok _ => .error .malformed

end

/-! ## Lines -/

/-- What has been named so far. -/
structure Scope where
  root : Table
  /-- The current table. -/
  header : Key
  /-- The keys of values in brackets or braces, which cannot be added to. -/
  closed : List Key
  /-- The keys of tables that have had their header. -/
  headed : List Key
  /-- The keys of tables that dotted keys have gone through since the last header. -/
  passed : List Key

/-- The scope of an empty document. -/
def Scope.empty : Scope := ⟨[], [], [], [], []⟩

/-- The keys on the way to a key that starts from the current table. -/
def passedKeys (header k : Key) : List Key :=
  (List.range (k.length - 1)).map fun i => header ++ k.take (i + 1)

/-- The scope after a line that sets a member. -/
def Scope.assign (s : Scope) (k : Key) (v : Value) : Except ReadError Scope :=
  let way := passedKeys s.header k
  if way.any (· ∈ s.headed) then .error .malformed
  else if isUnder s.closed (s.header ++ k.dropLast) then .error .malformed
  else match addAt true (s.header ++ k) v s.root with
    | .error e => .error e
    | .ok root =>
      .ok { s with
        root
        closed := if v.isContainer then (s.header ++ k) :: s.closed else s.closed
        passed := way ++ s.passed }

/-- The scope before a header: dotted keys no longer go through the tables that they made. -/
def Scope.settle (s : Scope) : Scope := { s with headed := s.passed ++ s.headed, passed := [] }

/-- The scope after the header of a table. -/
def Scope.openTable (s : Scope) (k : Key) : Except ReadError Scope :=
  if k ∈ s.headed ∨ isUnder s.closed k then .error .malformed
  else match inTable true .ok k s.root with
    | .error e => .error e
    | .ok root => .ok { s with root, header := k, headed := k :: s.headed }

/-- The scope after the header of an element of an array: what was named below the elements
    before it does not count any more. -/
def Scope.openElement (s : Scope) (k : Key) : Except ReadError Scope :=
  if isUnder s.closed k then .error .malformed
  else match k.getLast? with
    | none => .error .malformed
    | some last =>
      match inTable true (addElement last) k.dropLast s.root with
      | .error e => .error e
      | .ok root =>
        .ok { s with
          root
          header := k
          closed := s.closed.filter (!k.isPrefixOf ·)
          headed := k :: s.headed.filter (!k.isPrefixOf ·) }

/-- The scope after a line, and what follows on the line. -/
def statement (s : Scope) : List Char → Except ReadError (Scope × List Char)
  | '[' :: '[' :: cs =>
    match key cs.length (skipSpaces cs) with
    | .error e => .error e
    | .ok (k, ']' :: ']' :: rest) => (s.settle.openElement k).map (·, rest)
    | .ok _ => .error .malformed
  | '[' :: cs =>
    match key cs.length (skipSpaces cs) with
    | .error e => .error e
    | .ok (k, ']' :: rest) => (s.settle.openTable k).map (·, rest)
    | .ok _ => .error .malformed
  | cs =>
    match pair (cs.length + 1) cs with
    | .error e => .error e
    | .ok ((k, v), rest) => (s.assign k v).map (·, rest)

/-- The scope after a line that may be empty, with a comment at its end. -/
def line (s : Scope) (cs : List Char) : Except ReadError (Scope × List Char) :=
  match skipSpaces cs with
  | [] => .ok (s, [])
  | c :: cs =>
    let stated := if c = '\n' ∨ c = '#' then .ok (s, c :: cs) else statement s (c :: cs)
    match stated with
    | .error e => .error e
    | .ok (s, rest) => (skipComment (skipSpaces rest)).map (s, ·)

/-- The scope after a number of lines. -/
def statements : Nat → Scope → List Char → Except ReadError Scope
  | 0, s, _ => .ok s
  | budget + 1, s, cs =>
    match line s cs with
    | .error e => .error e
    | .ok (s, []) => .ok s
    | .ok (s, '\n' :: rest) => statements budget s rest
    | .ok _ => .error .malformed

/-- One line feed for each pair of a carriage return and a line feed. -/
def joinLineEnds : List Char → List Char
  | '\r' :: '\n' :: cs => '\n' :: joinLineEnds cs
  | c :: cs => c :: joinLineEnds cs
  | [] => []

/-- The table that a document denotes. -/
def parse (text : List Char) : Except ReadError Table :=
  let cs := joinLineEnds text
  (statements (cs.length + 1) .empty cs).map (·.root)

end FileTags.Toml
