/-
  The arguments of a command line: options and operands.

  A long option is written `--name`, with its value after `=` or as the next argument.  Short
  options are letters in one argument after a dash; the value of one is the rest of that argument
  or the next argument, whatever that looks like.  After `--` there are only operands.

  * `scan` reads arguments with a table of options: for a command, options and operands may come
    in any order; for what stands in front of a command, the first operand ends the options;
  * `scan_operands`: arguments that do not look like options are operands, in their order;
  * `operands`, `values` and `last?` look into what has been read.
-/
import FileTags.Text.Split

namespace FileTags.Arguments

open Text

/-- An option that may be given; `κ` says what it is for. -/
structure Flag (κ : Type) where
  key : κ
  short : Option Char
  long : Option String
  takesValue : Bool

/-- What an argument says. -/
inductive Argument (κ : Type) where
  | flag (key : κ)
  | value (key : κ) (text : String)
  | operand (text : String)
deriving DecidableEq

/-- What is read from an argument with options, and an option that waits for its value. -/
structure Reading (κ : Type) where
  found : List (Argument κ)
  waiting : Option κ

variable {κ : Type}

/-! ## One argument -/

/-- Whether an argument is read as options. -/
def isOption (argument : List Char) : Bool := argument.head? = some '-' && argument ≠ ['-']

/-- Reads the letters of short options. -/
def readLetters (table : List (Flag κ)) : List Char → Option (Reading κ)
  | [] => some ⟨[], none⟩
  | c :: cs =>
    match table.find? (·.short = some c) with
    | none => none
    | some o =>
      if o.takesValue then
        if cs.isEmpty then some ⟨[], some o.key⟩
        else some ⟨[.value o.key (String.ofList cs)], none⟩
      else (readLetters table cs).map fun r => { r with found := .flag o.key :: r.found }

/-- A long option with the value that is written with it; an option without values takes none. -/
def readLong (o : Flag κ) (value : Option String) : Option (Reading κ) :=
  match o.takesValue, value with
  | true, some v => some ⟨[.value o.key v], none⟩
  | true, none => some ⟨[], some o.key⟩
  | false, some _ => none
  | false, none => some ⟨[.flag o.key], none⟩

/-- The name in an argument, and the value after the first `=`. -/
def splitValue (argument : List Char) : List Char × Option String :=
  match argument.dropWhile (· ≠ '=') with
  | [] => (argument, none)
  | _ :: value => (argument.takeWhile (· ≠ '='), some (String.ofList value))

/-- Reads an argument with options. -/
def readOptions (table : List (Flag κ)) (argument : List Char) : Option (Reading κ) :=
  let (name, value) := splitValue argument
  match table.find? fun o => o.long.any fun long => name = '-' :: '-' :: long.toList with
  | some o => readLong o value
  | none =>
    if argument.take 2 = ['-', '-'] then none else readLetters table (argument.drop 1)

/-! ## All arguments -/

/-- Reads arguments, the first of them as the value of an option that waits for it. Where `mixed`
    is unset, options end at the first operand. -/
def scan (table : List (Flag κ)) (mixed : Bool) :
    Option κ → List String → Option (List (Argument κ))
  | none, [] => some []
  | some _, [] => none
  | some key, text :: rest => (scan table mixed none rest).map (.value key text :: ·)
  | none, text :: rest =>
    if text = "--" then some (rest.map .operand)
    else if isOption text.toList then
      match readOptions table text.toList with
      | none => none
      | some r => (scan table mixed r.waiting rest).map (r.found ++ ·)
    else if mixed then (scan table mixed none rest).map (.operand text :: ·)
    else some ((text :: rest).map .operand)

theorem scan_operands (table : List (Flag κ)) (mixed : Bool) {texts : List String}
    (h : ∀ t ∈ texts, isOption t.toList = false) :
    scan table mixed none texts = some (texts.map .operand) := by
  induction texts with
  | nil => rfl
  | cons t texts ih =>
    have dashes : t ≠ "--" := by
      rintro rfl
      exact absurd (h "--" (by simp)) (by decide)
    rw [scan, if_neg dashes, if_neg (by simp [h t]), ih fun t ht => h t (by simp [ht])]
    cases mixed <;> simp

/-! ## What has been read -/

/-- The operands. -/
def operands (arguments : List (Argument κ)) : List String :=
  arguments.filterMap fun
    | .operand text => some text
    | _ => none

/-- The option of an argument. -/
def Argument.key? : Argument κ → Option κ
  | .flag key => some key
  | .value key _ => some key
  | .operand _ => none

variable [DecidableEq κ]

/-- Whether an option is given. -/
def given (key : κ) (arguments : List (Argument κ)) : Bool := arguments.any (·.key? = some key)

/-- The values of an option, in their order. -/
def values (key : κ) (arguments : List (Argument κ)) : List String :=
  arguments.filterMap fun
    | .value k text => if k = key then some text else none
    | _ => none

/-- The value of an option: the last one counts. -/
def last? (key : κ) (arguments : List (Argument κ)) : Option String :=
  (values key arguments).getLast?

/-- The options that are given, in the order in which they come first. -/
def keys (arguments : List (Argument κ)) : List κ := (arguments.filterMap Argument.key?).eraseDups

end FileTags.Arguments
