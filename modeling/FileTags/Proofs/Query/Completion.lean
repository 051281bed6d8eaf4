/-
  What a failed reading says about longer queries.

  A state of the parser can be completed to a query: a missing operand is put in, and the open
  parentheses are closed.  So the end of the input is the only thing that is wrong when it is
  reported, and a token is reported as soon as no query starts with what has been read.

  * `step_cases` and `stepUnit_cases` say once what a step can do;
  * `ParseState.Sound` is the invariant of the states of a run: a negation never waits right
    below a left operand or a finished unit, where nothing would apply it;
  * `Sound.step` and `Sound.run` preserve it, `Sound.completes` completes a state that has it;
  * `Query.parseTokens_error_iff`: which of the two errors is reported, and where.
-/
import FileTags.Proofs.Query.Grammar

namespace FileTags.Query

/-- A token list is a query. -/
def Parses (ts : List Token) : Prop := ∃ e, parseTokens ts = .ok e

/-- A token list is the beginning of a query. -/
def Completable (ts : List Token) : Prop := ∃ us, Parses (ts ++ us)

variable {ts us : List Token} {t : Token} {e : Expr} {fault : ParseError} {stack rest : List Frame}
  {state next : ParseState}

/-! ## What a step does -/

/-- A token completes a key or an attribute, or it starts a unit, or it follows a unit that ends
    with what has just been read. -/
theorem step_cases (state : ParseState) (t : Token) :
    (∃ text, step state t = .ok ⟨.key text, state.stack⟩) ∨
      (∃ e, step state t = .ok (afterUnit e state.stack)) ∨
      step state t = stepStart state.stack t ∨
      (∃ e, step state t = stepAfter e state.stack t) ∨
      ∃ e, state.stage = .unit e ∧ step state t = stepUnit e state.stack t := by
  obtain ⟨stage, stack⟩ := state
  cases stage with
  | start => exact Or.inr (Or.inr (Or.inl rfl))
  | word text =>
    cases t with
    | colon => exact Or.inl ⟨text, rfl⟩
    | word | startParen | endParen | or | not =>
      exact Or.inr (Or.inr (Or.inr (Or.inl ⟨.tag text, rfl⟩)))
  | key text =>
    cases t with
    | word value => exact Or.inr (Or.inl ⟨.attr (some text) (some value), rfl⟩)
    | colon | startParen | endParen | or | not =>
      exact Or.inr (Or.inr (Or.inr (Or.inl ⟨.attr (some text) none, rfl⟩)))
  | colon =>
    cases t with
    | word value => exact Or.inr (Or.inl ⟨.attr none (some value), rfl⟩)
    | colon | startParen | endParen | or | not => exact Or.inr (Or.inr (Or.inl rfl))
  | unit e => exact Or.inr (Or.inr (Or.inr (Or.inr ⟨e, rfl, rfl⟩)))

/-- A token after a unit closes a group, separates operands, or starts the next unit. -/
theorem stepUnit_cases (e : Expr) (stack : List Frame) (t : Token) :
    (∃ chain rest, gather e stack = (chain, .group :: rest) ∧
        stepUnit e stack t = .ok (afterUnit chain rest)) ∨
      stepUnit e stack t = .error (.unexpectedToken t) ∨
      stepUnit e stack t = .ok ⟨.start, .either e :: stack⟩ ∨
      stepUnit e stack t = stepStart (.both e :: stack) t := by
  by_cases endParen : t = .endParen
  · subst endParen
    simp only [stepUnit]
    split
    · next chain rest closed => exact Or.inl ⟨chain, rest, closed, rfl⟩
    · exact Or.inr (Or.inl rfl)
  · by_cases or : t = .or
    · subst or
      exact Or.inr (Or.inr (Or.inl rfl))
    · exact Or.inr (Or.inr (Or.inr (stepUnit_of_ne or endParen)))

/-! ## The states of a run -/

/-- No negation waits right below a left operand. -/
def Stacked : List Frame → Prop
  | [] => True
  | .both _ :: stack | .either _ :: stack => Settled stack ∧ Stacked stack
  | .group :: stack | .negation :: stack => Stacked stack

/-- No negation waits right below a left operand or a finished unit. -/
def ParseState.Sound (state : ParseState) : Prop :=
  Stacked state.stack ∧ ∀ e, state.stage = .unit e → Settled state.stack

open ParseState (Sound)

theorem sound_initial : Sound initial := ⟨trivial, nofun⟩

theorem negate_stacked (s : Stacked stack) :
    Settled (negate e stack).2 ∧ Stacked (negate e stack).2 := by
  induction stack generalizing e with
  | nil => exact ⟨settled_nil, s⟩
  | cons frame stack ih =>
    cases frame with
    | negation => exact ih s
    | group | both | either => exact ⟨settled_cons nofun, s⟩

theorem gather_stacked {chain : Expr} (s : Stacked stack)
    (h : gather e stack = (chain, .group :: rest)) : Stacked rest := by
  induction stack generalizing e with
  | nil => cases h
  | cons frame stack ih =>
    cases frame with
    | both | either => exact ih s.2 h
    | negation => cases h
    | group =>
      cases h
      exact s

theorem sound_afterUnit (s : Stacked stack) : Sound (afterUnit e stack) :=
  ⟨(negate_stacked s).2, fun _ _ => (negate_stacked s).1⟩

theorem sound_stepStart (s : Stacked stack) (h : stepStart stack t = .ok next) : Sound next := by
  cases t with
  | word | colon | not | startParen =>
    cases h
    exact ⟨s, nofun⟩
  | or | endParen => cases h

theorem sound_stepUnit (settled : Settled stack) (s : Stacked stack)
    (h : stepUnit e stack t = .ok next) : Sound next := by
  rcases stepUnit_cases e stack t with ⟨chain, rest, closed, step⟩ | step | step | step <;>
    rw [step] at h
  · cases h
    exact sound_afterUnit (gather_stacked s closed)
  · cases h
  · cases h
    exact ⟨⟨settled, s⟩, nofun⟩
  · have s : Stacked (.both e :: stack) := ⟨settled, s⟩
    exact sound_stepStart s h

/-- **A step preserves the invariant.** -/
theorem ParseState.Sound.step (s : Sound state) (h : step state t = .ok next) : Sound next := by
  obtain ⟨stacked, settled⟩ := s
  rcases step_cases state t with ⟨text, step⟩ | ⟨e, step⟩ | step | ⟨e, step⟩ | ⟨e, unit, step⟩ <;>
    rw [step] at h
  · cases h
    exact ⟨stacked, nofun⟩
  · cases h
    exact sound_afterUnit stacked
  · exact sound_stepStart stacked h
  · exact sound_stepUnit (negate_stacked stacked).1 (negate_stacked stacked).2 h
  · exact sound_stepUnit (settled e unit) stacked h

/-- **A run preserves the invariant.** -/
theorem ParseState.Sound.run (s : Sound state) (h : run state ts = .ok next) : Sound next := by
  induction ts generalizing state with
  | nil =>
    cases h
    exact s
  | cons t ts ih =>
    simp only [Query.run] at h
    cases first : Query.step state t with
    | error fault => simp [first, Except.bind] at h
    | ok mid =>
      simp only [first, Except.bind] at h
      exact ih (s.step first) h

/-! ## Completing a state -/

theorem closes_replicate (n : Nat) : Closes (List.replicate n .endParen) := by
  cases n with
  | zero => exact Or.inl rfl
  | succ n => exact Or.inr rfl

theorem head?_replicate_ne (n : Nat) (ne : t ≠ .endParen) :
    (List.replicate n Token.endParen).head? ≠ some t := by
  intro top
  have there : t ∈ List.replicate n Token.endParen := List.mem_of_head? top
  exact ne (List.eq_of_mem_replicate there)

/-- Closing the open parentheses after a unit makes a query. -/
theorem exists_closing (s : Stacked stack) (e : Expr) :
    ∃ n chain, resume (afterUnit e stack) (List.replicate n .endParen) = .ok chain := by
  induction stack generalizing e with
  | nil => exact ⟨0, e, rfl⟩
  | cons frame stack ih =>
    cases frame with
    | group =>
      obtain ⟨n, chain, h⟩ := ih s e
      exact ⟨n + 1, chain, resume_endParen.trans h⟩
    | negation => exact ih s (.not e)
    | both left =>
      obtain ⟨n, chain, h⟩ := ih s.2 (.and left e)
      rw [afterUnit_of_settled s.1] at h
      exact ⟨n, chain, (resume_both (closes_replicate n)).trans h⟩
    | either left =>
      obtain ⟨n, chain, h⟩ := ih s.2 (.or left e)
      rw [afterUnit_of_settled s.1] at h
      exact ⟨n, chain, (resume_either (closes_replicate n)).trans h⟩

/-- **Every state of a run can be completed.** -/
theorem ParseState.Sound.completes (s : Sound state) : ∃ us e, resume state us = .ok e := by
  obtain ⟨stage, stack⟩ := state
  obtain ⟨stacked, settled⟩ := s
  cases stage with
  | start =>
    obtain ⟨n, chain, h⟩ := exists_closing stacked (.tag "")
    refine ⟨.word "" :: List.replicate n .endParen, chain, ?_⟩
    rw [resume_cons]
    exact (resume_word (head?_replicate_ne n nofun)).trans h
  | word name =>
    obtain ⟨n, chain, h⟩ := exists_closing stacked (.tag name)
    exact ⟨_, chain, (resume_word (head?_replicate_ne n nofun)).trans h⟩
  | key key =>
    obtain ⟨n, chain, h⟩ := exists_closing stacked (.attr (some key) none)
    exact ⟨_, chain, (resume_key fun _ => head?_replicate_ne n nofun).trans h⟩
  | colon =>
    obtain ⟨n, chain, h⟩ := exists_closing stacked (.attr none (some ""))
    refine ⟨.word "" :: List.replicate n .endParen, chain, ?_⟩
    rw [resume_cons]
    exact h
  | unit e =>
    obtain ⟨n, chain, h⟩ := exists_closing stacked e
    rw [afterUnit_of_settled (settled e rfl)] at h
    exact ⟨_, chain, h⟩

/-! ## Errors -/

theorem stepStart_error (h : stepStart stack t = .error fault) : fault = .unexpectedToken t := by
  cases t with
  | word | colon | not | startParen => cases h
  | or | endParen =>
    cases h
    rfl

theorem stepUnit_error (h : stepUnit e stack t = .error fault) : fault = .unexpectedToken t := by
  rcases stepUnit_cases e stack t with ⟨chain, rest, -, step⟩ | step | step | step <;>
    rw [step] at h
  · cases h
  · cases h
    rfl
  · cases h
  · exact stepStart_error h

theorem step_error (h : step state t = .error fault) : fault = .unexpectedToken t := by
  rcases step_cases state t with ⟨text, step⟩ | ⟨e, step⟩ | step | ⟨e, step⟩ | ⟨e, -, step⟩ <;>
    rw [step] at h
  · cases h
  · cases h
  · exact stepStart_error h
  · exact stepUnit_error h
  · exact stepUnit_error h

theorem finish_error (h : finish state = .error fault) : fault = .unexpectedEnd := by
  unfold finish at h
  split at h
  · cases h
    rfl
  · split at h <;> cases h
    rfl

/-- A run fails at a token, which it names, after a run over what stands before. -/
theorem run_error (h : run state ts = .error fault) : ∃ p t mid, ts[p]? = some t ∧
    fault = .unexpectedToken t ∧ run state (ts.take p) = .ok mid ∧
    run state (ts.take (p + 1)) = .error fault := by
  induction ts generalizing state with
  | nil => cases h
  | cons t ts ih =>
    simp only [run] at h
    cases first : step state t with
    | error fault' =>
      simp only [first, Except.bind] at h
      cases h
      exact ⟨0, t, state, rfl, step_error first, rfl, by simp [run, first, Except.bind]⟩
    | ok next =>
      simp only [first, Except.bind] at h
      obtain ⟨p, u, mid, there, named, before, fails⟩ := ih h
      refine ⟨p + 1, u, mid, there, named, ?_, ?_⟩
      · simp [run, first, Except.bind, before]
      · simp [run, first, Except.bind, fails]

/-! ## Beginnings of queries -/

theorem resume_append : resume state (ts ++ us) = (run state ts).bind (resume · us) := by
  simp only [resume, run_append]
  cases run state ts <;> rfl

theorem completable_of_run (h : run initial ts = .ok state) : Completable ts := by
  obtain ⟨us, e, closed⟩ := (sound_initial.run h).completes
  refine ⟨us, ?_⟩
  by_cases empty : ts ++ us = []
  · exact ⟨.every, by rw [empty]; rfl⟩
  · refine ⟨e, ?_⟩
    rw [parseTokens_eq_resume empty, resume_append, h]
    exact closed

theorem not_completable_of_run (h : run initial ts = .error fault) : ¬ Completable ts := by
  rintro ⟨us, e, ok⟩
  have ne : ts ++ us ≠ [] := by
    intro empty
    rw [(List.append_eq_nil_iff.1 empty).1] at h
    cases h
  rw [parseTokens_eq_resume ne, resume_append, h] at ok
  cases ok

theorem parseTokens_of_run_error (h : run initial ts = .error fault) :
    parseTokens ts = .error fault := by
  have ne : ts ≠ [] := by
    rintro rfl
    cases h
  rw [parseTokens_eq_resume ne, resume, h]
  rfl

theorem parseTokens_of_run_ok (h : run initial ts = .ok state) :
    Parses ts ∨ parseTokens ts = .error .unexpectedEnd := by
  by_cases empty : ts = []
  · exact Or.inl ⟨.every, by rw [empty]; rfl⟩
  · have finished : parseTokens ts = finish state := by
      rw [parseTokens_eq_resume empty, resume, h]
      rfl
    cases result : finish state with
    | ok e => exact Or.inl ⟨e, finished.trans result⟩
    | error fault => exact Or.inr (finished.trans (finish_error result ▸ result))

/-- **Errors tell whether a query can be completed.**  The end of the input is reported when the
    list is no query but the beginning of one, a token when it is not even that.  The token is
    the first one with which what stands before it begins no query. -/
theorem parseTokens_error_iff (ts : List Token) :
    (parseTokens ts = .error .unexpectedEnd ↔ ¬ Parses ts ∧ Completable ts) ∧
      ((∃ t, parseTokens ts = .error (.unexpectedToken t)) ↔ ∀ us, ¬ Parses (ts ++ us)) ∧
      ∀ t, parseTokens ts = .error (.unexpectedToken t) → ∃ p, ts[p]? = some t ∧
        Completable (ts.take p) ∧ ¬ Completable (ts.take (p + 1)) := by
  have parses_ne : ∀ {fault}, parseTokens ts = .error fault → ¬ Parses ts := by
    rintro fault failed ⟨e, ok⟩
    rw [failed] at ok
    cases ok
  cases h : run initial ts with
  | ok state =>
    have completable := completable_of_run h
    have token : ∀ t, parseTokens ts ≠ .error (.unexpectedToken t) := by
      intro t failed
      rcases parseTokens_of_run_ok h with parses | atEnd
      · exact parses_ne failed parses
      · rw [atEnd] at failed
        cases failed
    refine ⟨⟨fun failed => ⟨parses_ne failed, completable⟩, ?_⟩, ⟨?_, ?_⟩, ?_⟩
    · exact fun ⟨fails, _⟩ => (parseTokens_of_run_ok h).resolve_left fails
    · exact fun ⟨t, failed⟩ => absurd failed (token t)
    · exact fun noQuery => absurd completable (not_exists.2 noQuery)
    · exact fun t failed => absurd failed (token t)
  | error fault =>
    have failed := parseTokens_of_run_error h
    have stuck := not_completable_of_run h
    obtain ⟨p, t, mid, there, rfl, before, fails⟩ := run_error h
    refine ⟨⟨fun atEnd => ?_, fun ⟨_, completable⟩ => absurd completable stuck⟩,
      ⟨fun _ => not_exists.1 stuck, fun _ => ⟨t, failed⟩⟩, ?_⟩
    · rw [failed] at atEnd
      cases atEnd
    · intro t' failed'
      obtain rfl : t = t' := by
        rw [failed] at failed'
        cases failed'
        rfl
      exact ⟨p, there, completable_of_run before, not_completable_of_run fails⟩

/-- A closing parenthesis without an open one is reported, not the end that comes after it. -/
theorem parseTokens_stray_parenthesis :
    ∃ p, [.word "a", .endParen, .not][p]? = some Token.endParen ∧
      Completable ([.word "a", .endParen, .not].take p) ∧
      ¬ Completable ([.word "a", .endParen, .not].take (p + 1)) :=
  (parseTokens_error_iff _).2.2 .endParen rfl

end FileTags.Query
