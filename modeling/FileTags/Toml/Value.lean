/-
  Values of TOML documents.

  A table keeps its members in the order in which they were first named.  A number with a point
  or an exponent is kept as it is written, a decimal; a date or a time is kept by its parts.

  * `Value` is a value, `Table` the members of a table;
  * `Table.get?` and `Table.set` look a member up and write one.
-/

namespace FileTags.Toml

/-- A number that is written with a point or an exponent, or that is none. -/
inductive Real where
  /-- `mantissa` times ten to the power `exponent`. -/
  | decimal (negative : Bool) (mantissa : Nat) (exponent : Int)
  | infinite (negative : Bool)
  | notANumber
deriving DecidableEq

/-- A day of the calendar. -/
structure Date where
  year : Nat
  month : Nat
  day : Nat
deriving DecidableEq

/-- A time of the day. -/
structure Time where
  hour : Nat
  minute : Nat
  second : Nat
  microsecond : Nat
deriving DecidableEq

/-- What a time is counted from: the clock at its place, or so many minutes from the common
    time. -/
inductive Zone where
  | here
  | offset (minutes : Int)
deriving DecidableEq

/-- A value of a TOML document. -/
inductive Value where
  | string (s : String)
  | integer (n : Int)
  | real (x : Real)
  | boolean (b : Bool)
  | date (d : Date)
  | time (t : Time)
  | dateTime (d : Date) (t : Time) (zone : Zone)
  | array (items : List Value)
  | table (members : List (String × Value))

instance : Inhabited Value := ⟨.table []⟩

/-- The members of a table. -/
abbrev Table := List (String × Value)

namespace Table

/-- The member with a key. -/
def get? (t : Table) (key : String) : Option Value := t.lookup key

/-- A table with a member: a key that is there keeps its place. -/
def set (key : String) (value : Value) : Table → Table
  | [] => [(key, value)]
  | (k, v) :: rest => if key = k then (k, value) :: rest else (k, v) :: set key value rest

end Table

/-- Whether a value has members or items of its own. -/
def Value.isContainer : Value → Bool
  | .array _ => true
  | .table _ => true
  | _ => false

end FileTags.Toml
