/-
  The grammar of queries, and that the parser reads it.

  A phrase is a unit or a chain of units.  `Derives` says which tokens are a phrase, which
  expression it denotes, and what follows it; what follows matters where a colon or a word would
  belong to the phrase.

  * `Query.resume` is what becomes of a state of the parser and the rest of the input;
  * `Derives.consumes`: the parser reads a phrase as the expression that it denotes;
  * `Query.derives_of_resume`: what the parser reads is a chain;
  * `Query.parseTokens_eq_ok_iff`: a token list denotes what its derivation as a chain says, and
    has one such derivation at most.
-/
import FileTags.Query.Parse

namespace FileTags.Query

/-! ## The grammar -/

/-- The kinds of phrases. -/
inductive Phrase where
  | unit
  | chain
deriving DecidableEq

/-- `Derives kind ts rest e`: the tokens `ts` are a phrase that denotes `e`, and then `rest`. -/
inductive Derives : Phrase → List Token → List Token → Expr → Prop
  | tag {name rest} : rest.head? ≠ some .colon →
      Derives .unit (.word name :: rest) rest (.tag name)
  | pair {key value rest} :
      Derives .unit (.word key :: .colon :: .word value :: rest) rest
        (.attr (some key) (some value))
  | key {key rest} : (∀ text, rest.head? ≠ some (.word text)) →
      Derives .unit (.word key :: .colon :: rest) rest (.attr (some key) none)
  | value {value rest} :
      Derives .unit (.colon :: .word value :: rest) rest (.attr none (some value))
  | colon {ts rest e} : (∀ text, ts.head? ≠ some (.word text)) → Derives .unit ts rest e →
      Derives .unit (.colon :: ts) rest e
  | not {ts rest e} : Derives .unit ts rest e → Derives .unit (.not :: ts) rest (.not e)
  | group {ts rest e} : Derives .chain ts (.endParen :: rest) e →
      Derives .unit (.startParen :: ts) rest e
  | last {ts rest e} : Derives .unit ts rest e → Derives .chain ts rest e
  | or {ts ts' rest left right} : Derives .unit ts (.or :: ts') left →
      Derives .chain ts' rest right → Derives .chain ts rest (.or left right)
  | and {ts ts' rest left right} : Derives .unit ts ts' left →
      Derives .chain ts' rest right → Derives .chain ts rest (.and left right)

variable {kind : Phrase} {ts rest : List Token} {e r left right : Expr} {stack : List Frame}
  {state : ParseState}

/-- A phrase takes at least one token, and starts with neither `or` nor a closing parenthesis. -/
theorem Derives.start (d : Derives kind ts rest e) :
    ∃ t ts', ts = t :: ts' ∧ t ≠ .or ∧ t ≠ .endParen := by
  induction d with
  | tag | pair | key | value | colon | not | group => exact ⟨_, _, rfl, nofun, nofun⟩
  | last _ ih => exact ih
  | or _ _ ih | and _ _ ih => exact ih

theorem Derives.length_lt (d : Derives kind ts rest e) : rest.length < ts.length := by
  induction d with
  | tag | pair | key | value => simp only [List.length_cons]; omega
  | colon _ _ ih | not _ ih | group _ ih => simp only [List.length_cons] at *; omega
  | last _ ih => exact ih
  | or _ _ ih ih' => rw [List.length_cons] at ih; omega
  | and _ _ ih ih' => omega

theorem Derives.ne_nil (d : Derives kind ts rest e) : ts ≠ [] :=
  List.ne_nil_of_length_pos (Nat.zero_lt_of_lt d.length_lt)

/-! ## The rest of the input -/

/-- What becomes of a state and the rest of the input. -/
def resume (state : ParseState) (tokens : List Token) : Except ParseError Expr :=
  (run state tokens).bind finish

theorem resume_cons {t : Token} : resume state (t :: ts) = (step state t).bind (resume · ts) := by
  simp only [resume, run]
  cases step state t <;> rfl

theorem parseTokens_eq_resume (ne : ts ≠ []) : parseTokens ts = resume initial ts := by
  cases ts with
  | nil => exact absurd rfl ne
  | cons t ts => rfl

/-- No negation waits on top of a stack. -/
def Settled (stack : List Frame) : Prop := stack.head? ≠ some .negation

/-- A chain ends here: at the end of the input or at a closing parenthesis. -/
def Closes (rest : List Token) : Prop := rest = [] ∨ rest.head? = some .endParen

theorem settled_nil : Settled [] := nofun

theorem settled_cons {frame : Frame} (ne : frame ≠ .negation) : Settled (frame :: stack) :=
  fun top => ne (Option.some.inj top)

theorem negate_of_settled (s : Settled stack) : negate e stack = (e, stack) := by
  cases stack with
  | nil => rfl
  | cons frame stack =>
    cases frame with
    | negation => exact absurd rfl s
    | group | both | either => rfl

theorem afterUnit_of_settled (s : Settled stack) : afterUnit e stack = ⟨.unit e, stack⟩ := by
  rw [afterUnit, negate_of_settled s]

/-! ## One token of lookahead -/

theorem resume_word {name : String} (free : ts.head? ≠ some .colon) :
    resume ⟨.word name, stack⟩ ts = resume (afterUnit (.tag name) stack) ts := by
  cases ts with
  | nil => rfl
  | cons t ts =>
    cases t with
    | colon => exact absurd rfl free
    | word | startParen | endParen | or | not => rw [resume_cons, resume_cons]; rfl

theorem resume_key {key : String} (free : ∀ text, ts.head? ≠ some (.word text)) :
    resume ⟨.key key, stack⟩ ts = resume (afterUnit (.attr (some key) none) stack) ts := by
  cases ts with
  | nil => rfl
  | cons t ts =>
    cases t with
    | word text => exact absurd rfl (free text)
    | colon | startParen | endParen | or | not => rw [resume_cons, resume_cons]; rfl

theorem resume_colon (free : ∀ text, ts.head? ≠ some (.word text)) :
    resume ⟨.colon, stack⟩ ts = resume ⟨.start, stack⟩ ts := by
  cases ts with
  | nil => rfl
  | cons t ts =>
    cases t with
    | word text => exact absurd rfl (free text)
    | colon | startParen | endParen | or | not => rw [resume_cons, resume_cons]; rfl

/-- After a unit, a token that starts a unit goes on with an operator left out. -/
theorem stepUnit_of_ne {t : Token} (or : t ≠ .or) (endParen : t ≠ .endParen) :
    stepUnit e stack t = stepStart (.both e :: stack) t := by
  cases t with
  | or => exact absurd rfl or
  | endParen => exact absurd rfl endParen
  | word | startParen | not | colon => rfl

theorem resume_next {t : Token} (or : t ≠ .or) (endParen : t ≠ .endParen) :
    resume ⟨.unit e, stack⟩ (t :: ts) = resume ⟨.start, .both e :: stack⟩ (t :: ts) := by
  have same : step ⟨.unit e, stack⟩ t = step ⟨.start, .both e :: stack⟩ t :=
    stepUnit_of_ne or endParen
  rw [resume_cons, resume_cons, same]

/-- Where a chain ends, only what its left operands gather to matters. -/
theorem resume_of_gather {e' : Expr} {stack' : List Frame} (closes : Closes ts)
    (same : gather e stack = gather e' stack') :
    resume ⟨.unit e, stack⟩ ts = resume ⟨.unit e', stack'⟩ ts := by
  cases ts with
  | nil =>
    show finish ⟨.unit e, stack⟩ = finish ⟨.unit e', stack'⟩
    simp only [finish, lastUnit?, same]
  | cons t ts =>
    obtain rfl : t = .endParen := by simpa [Closes] using closes
    rw [resume_cons, resume_cons]
    simp only [step, stepUnit, same]

theorem resume_both (closes : Closes ts) :
    resume ⟨.unit right, .both left :: stack⟩ ts = resume ⟨.unit (.and left right), stack⟩ ts :=
  resume_of_gather closes rfl

theorem resume_either (closes : Closes ts) :
    resume ⟨.unit right, .either left :: stack⟩ ts = resume ⟨.unit (.or left right), stack⟩ ts :=
  resume_of_gather closes rfl

theorem resume_endParen : resume ⟨.unit e, .group :: stack⟩ (.endParen :: ts) =
    resume (afterUnit e stack) ts := by
  rw [resume_cons]
  rfl

/-! ## The parser reads phrases -/

/-- The parser takes a phrase off the input as the expression that it denotes; it takes a chain
    where that must end. -/
def Consumes : Phrase → List Token → List Token → Expr → Prop
  | .unit, ts, rest, e => ∀ stack, resume ⟨.start, stack⟩ ts = resume (afterUnit e stack) rest
  | .chain, ts, rest, e => Closes rest → ∀ stack, Settled stack →
      resume ⟨.start, stack⟩ ts = resume ⟨.unit e, stack⟩ rest

/-- **Completeness**: what the grammar derives, the parser reads. -/
theorem Derives.consumes (d : Derives kind ts rest e) : Consumes kind ts rest e := by
  induction d with
  | tag free =>
    intro stack
    rw [resume_cons]
    exact resume_word free
  | pair | value =>
    intro stack
    rw [resume_cons]
    rfl
  | key free =>
    intro stack
    rw [resume_cons]
    exact resume_key free
  | colon free _ ih =>
    intro stack
    rw [resume_cons]
    exact (resume_colon free).trans (ih stack)
  | not _ ih =>
    intro stack
    rw [resume_cons]
    exact ih (.negation :: stack)
  | group _ ih =>
    intro stack
    rw [resume_cons]
    exact (ih (Or.inr rfl) (.group :: stack) (settled_cons nofun)).trans resume_endParen
  | last _ ih =>
    intro _ stack settled
    rw [ih stack, afterUnit_of_settled settled]
  | @or _ ts' _ left _ _ _ ih ih' =>
    intro closes stack settled
    have operator : resume ⟨.unit left, stack⟩ (.or :: ts') =
        resume ⟨.start, .either left :: stack⟩ ts' := by
      rw [resume_cons]
      rfl
    rw [ih stack, afterUnit_of_settled settled, operator,
      ih' closes (.either left :: stack) (settled_cons nofun), resume_either closes]
  | @and _ _ _ left _ _ d' ih ih' =>
    intro closes stack settled
    obtain ⟨t, ts', rfl, or, endParen⟩ := d'.start
    rw [ih stack, afterUnit_of_settled settled, resume_next or endParen,
      ih' closes (.both left :: stack) (settled_cons nofun), resume_both closes]

/-! ## What the parser reads is a phrase -/

/-- Input on which the parser comes to a result starts with a phrase; a chain then ends. -/
def Readable : Phrase → List Token → Prop
  | .unit, ts => ∀ stack r, resume ⟨.start, stack⟩ ts = .ok r → ∃ e rest, Derives .unit ts rest e
  | .chain, ts => ∀ stack r, Settled stack → resume ⟨.start, stack⟩ ts = .ok r →
      ∃ e rest, Derives .chain ts rest e ∧ Closes rest

theorem head?_word_or (ts : List Token) :
    (∃ text rest, ts = .word text :: rest) ∨ ∀ text, ts.head? ≠ some (.word text) := by
  cases ts with
  | nil => exact Or.inr nofun
  | cons t ts =>
    cases t with
    | word text => exact Or.inl ⟨text, ts, rfl⟩
    | startParen | endParen | or | not | colon => exact Or.inr nofun

theorem readable_unit (shorter : ∀ kind ts', ts'.length < ts.length → Readable kind ts') :
    Readable .unit ts := by
  intro stack r ok
  cases ts with
  | nil => cases ok
  | cons t ts =>
    have unit := shorter .unit ts (Nat.lt_succ_self _)
    have chain := shorter .chain ts (Nat.lt_succ_self _)
    rw [resume_cons] at ok
    cases t with
    | word name =>
      by_cases colon : ts.head? = some .colon
      · obtain ⟨ts, rfl⟩ : ∃ ts', ts = .colon :: ts' := List.head?_eq_some_iff.1 colon
        rcases head?_word_or ts with ⟨value, rest, rfl⟩ | free
        · exact ⟨_, _, .pair⟩
        · exact ⟨_, _, .key free⟩
      · exact ⟨_, _, .tag colon⟩
    | startParen =>
      obtain ⟨e, rest, d, closes⟩ := chain (.group :: stack) r (settled_cons nofun) ok
      have ok : resume ⟨.unit e, .group :: stack⟩ rest = .ok r :=
        (d.consumes closes (.group :: stack) (settled_cons nofun)).symm.trans ok
      cases rest with
      | nil => cases ok
      | cons t rest =>
        obtain rfl : t = .endParen := by simpa [Closes] using closes
        exact ⟨_, _, .group d⟩
    | not =>
      obtain ⟨e, rest, d⟩ := unit (.negation :: stack) r ok
      exact ⟨_, _, .not d⟩
    | colon =>
      rcases head?_word_or ts with ⟨value, rest, rfl⟩ | free
      · exact ⟨_, _, .value⟩
      · obtain ⟨e, rest, d⟩ := unit stack r ((resume_colon free).symm.trans ok)
        exact ⟨_, _, .colon free d⟩
    | or | endParen => cases ok

theorem readable_chain (unit : Readable .unit ts)
    (shorter : ∀ ts', ts'.length < ts.length → Readable .chain ts') : Readable .chain ts := by
  intro stack r settled ok
  obtain ⟨left, rest, d⟩ := unit stack r ok
  have ok : resume ⟨.unit left, stack⟩ rest = .ok r := by
    rw [← ok, d.consumes stack, afterUnit_of_settled settled]
  have fewer := d.length_lt
  cases rest with
  | nil => exact ⟨_, _, .last d, Or.inl rfl⟩
  | cons t rest =>
    by_cases endParen : t = .endParen
    · exact ⟨_, _, .last d, Or.inr (congrArg some endParen)⟩
    · by_cases or : t = .or
      · subst or
        rw [resume_cons] at ok
        have fewer : rest.length < ts.length := Nat.lt_of_succ_lt fewer
        obtain ⟨right, rest, d', closes⟩ :=
          shorter rest fewer (.either left :: stack) r (settled_cons nofun) ok
        exact ⟨_, _, .or d d', closes⟩
      · rw [resume_next or endParen] at ok
        obtain ⟨right, rest, d', closes⟩ :=
          shorter _ fewer (.both left :: stack) r (settled_cons nofun) ok
        exact ⟨_, _, .and d d', closes⟩

theorem readable (kind : Phrase) (ts : List Token) : Readable kind ts := by
  -- The induction is on the number of tokens, for both kinds of phrases at once.
  induction n : ts.length using Nat.strongRecOn generalizing kind ts with
  | ind n ih =>
    subst n
    have shorter : ∀ kind ts', ts'.length < ts.length → Readable kind ts' :=
      fun kind ts' fewer => ih _ fewer kind ts' rfl
    have unit := readable_unit shorter
    cases kind with
    | unit => exact unit
    | chain => exact readable_chain unit (shorter .chain)

/-- **Soundness**: what the parser reads, the grammar derives. -/
theorem derives_of_resume (ok : resume initial ts = .ok e) : Derives .chain ts [] e := by
  obtain ⟨e', rest, d, closes⟩ := readable .chain ts [] e settled_nil ok
  have ok : resume ⟨.unit e', []⟩ rest = .ok e := (d.consumes closes [] settled_nil).symm.trans ok
  cases rest with
  | nil =>
    obtain rfl : e' = e := Except.ok.inj ok
    exact d
  | cons t rest =>
    obtain rfl : t = .endParen := by simpa [Closes] using closes
    rw [resume_cons] at ok
    cases ok

theorem resume_of_derives (d : Derives .chain ts [] e) : resume initial ts = .ok e :=
  d.consumes (Or.inl rfl) [] settled_nil

theorem resume_initial_iff : resume initial ts = .ok e ↔ Derives .chain ts [] e :=
  ⟨derives_of_resume, resume_of_derives⟩

/-- **The parser reads its grammar.**  A token list denotes an expression if it is empty and the
    expression matches everything, or if it derives the expression as a chain; and it derives one
    expression at most. -/
theorem parseTokens_eq_ok_iff :
    (∀ ts e, parseTokens ts = .ok e ↔ (ts = [] ∧ e = .every) ∨ Derives .chain ts [] e) ∧
      ∀ ts e e', Derives .chain ts [] e → Derives .chain ts [] e' → e = e' := by
  constructor
  · intro ts e
    cases ts with
    | nil =>
      have nothing : ¬ Derives .chain [] [] e := fun d => Nat.lt_irrefl _ d.length_lt
      simp [parseTokens, nothing, eq_comm]
    | cons t ts =>
      rw [parseTokens_eq_resume (List.cons_ne_nil t ts), resume_initial_iff]
      simp
  · intro ts e e' d d'
    exact Except.ok.inj ((resume_of_derives d).symm.trans (resume_of_derives d'))

/-- Both operators take the rest of the chain. -/
theorem parseTokens_right_grouping :
    parseTokens [.word "a", .word "b", .or, .word "c"] =
        .ok (.and (.tag "a") (.or (.tag "b") (.tag "c"))) ∧
      ∀ e, Derives .chain [.word "a", .word "b", .or, .word "c"] [] e →
        e = .and (.tag "a") (.or (.tag "b") (.tag "c")) := by
  have d : Derives .chain [.word "a", .word "b", .or, .word "c"] []
      (.and (.tag "a") (.or (.tag "b") (.tag "c"))) :=
    .and (.tag nofun) (.or (.tag nofun) (.last (.tag nofun)))
  exact ⟨(parseTokens_eq_ok_iff.1 _ _).2 (Or.inr d), fun e d' => parseTokens_eq_ok_iff.2 _ _ _ d' d⟩

end FileTags.Query
