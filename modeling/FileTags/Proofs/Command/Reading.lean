/-
  Commands that have been read from a command line.

  * `Command.HasTags` says that a command that works on tags has some;
  * `Request.hasTags`: so it is with every command that is read;
  * `Request.setting?_database`: a command that is read without a database to use has none set from
    outside either.
-/
import FileTags.Command.Basic

namespace FileTags

open Arguments

/-- A computation that does not fail has got through its first part. -/
theorem exists_of_bind {ε α β : Type} {x : Except ε α} {f : α → Except ε β} {b : β}
    (read : x >>= f = .ok b) : ∃ a, x = .ok a ∧ f a = .ok b := by
  cases x with
  | error e => cases read
  | ok a => exact ⟨a, rfl, read⟩

namespace Command

/-- A command that works on tags has some. -/
def HasTags : Command → Prop
  | add raws _ => raws ≠ []
  | remove raws _ => raws ≠ []
  | _ => True

variable {command : Command} {texts : List String} {name : String}

theorem hasTags_takeNothing (plain : command.HasTags)
    {r : Command} (read : takeNothing command texts = .ok r) : r.HasTags := by
  obtain ⟨arguments, -, read⟩ := exists_of_bind read
  split at read
  · cases read
    exact plain
  · cases read

theorem hasTags_takeTagged {make : List String → FileArguments → Command}
    (made : ∀ raws files, raws ≠ [] → (make raws files).HasTags)
    (read : takeTagged make texts = .ok command) : command.HasTags := by
  obtain ⟨arguments, -, read⟩ := exists_of_bind read
  obtain ⟨files, -, read⟩ := exists_of_bind read
  split at read
  · cases read
  next some =>
    cases read
    exact made _ files some

theorem hasTags_ofArguments (read : ofArguments name texts = some (.ok command)) :
    command.HasTags := by
  unfold ofArguments at read
  split at read
  case h_1 => exact hasTags_takeNothing (show HasTags init from trivial) (Option.some.inj read)
  case h_2 | h_3 =>
    have read := Option.some.inj read
    refine hasTags_takeTagged (fun raws files some => ?_) read
    exact some
  case h_4 => exact hasTags_takeNothing (show HasTags cleanup from trivial) (Option.some.inj read)
  case h_5 =>
    obtain ⟨arguments, -, read⟩ := exists_of_bind (Option.some.inj read)
    obtain ⟨files, -, read⟩ := exists_of_bind read
    cases read
    trivial
  case h_6 =>
    obtain ⟨arguments, -, read⟩ := exists_of_bind (Option.some.inj read)
    obtain ⟨files, -, read⟩ := exists_of_bind read
    split at read
    · cases read
    · cases read
      trivial
  case h_7 =>
    obtain ⟨arguments, -, read⟩ := exists_of_bind (Option.some.inj read)
    obtain ⟨limit, -, read⟩ := exists_of_bind read
    cases read
    trivial
  case h_8 => cases read

end Command

/-- **A command that is read has its tags.** -/
theorem Request.hasTags {env : Environment} {texts : List String} {command : Command}
    (asked : (Request.ofArguments env texts).command = .ok command) : command.HasTags := by
  unfold Request.ofArguments at asked
  split at asked
  · cases asked
  · cases asked
  · split at asked
    next read => exact Command.hasTags_ofArguments (read.trans (congrArg some asked))
    next => split at asked <;> cases asked

/-! ## The database to use -/

namespace Settings

variable {s s' : Settings} {arguments : List (Argument Setting)} {key : Setting}

/-- The option for a database sets one, and no other option takes it back. -/
theorem database_of_take (took : s.take arguments key = .ok s')
    (there : key = .database ∨ s.database ≠ none) : s'.database ≠ none := by
  cases key with
  | verbose =>
    cases took
    exact there.resolve_left nofun
  | json =>
    cases took
    exact there.resolve_left nofun
  | version => cases took
  | logLevel =>
    rw [take] at took
    split at took
    · cases took
      exact there.resolve_left nofun
    · cases took
  | database =>
    rw [take] at took
    split at took
    · cases took
      nofun
    · cases took
    · cases took

theorem database_of_takeAll {keys : List Setting} (took : s.takeAll arguments keys = (s', .ok ()))
    (there : Setting.database ∈ keys ∨ s.database ≠ none) : s'.database ≠ none := by
  induction keys generalizing s with
  | nil =>
    cases took
    exact there.resolve_left List.not_mem_nil
  | cons key keys ih =>
    rw [takeAll] at took
    split at took
    · cases took
    next first =>
      refine ih took ?_
      rw [List.mem_cons] at there
      rcases there with (same | later) | before
      · exact .inr (database_of_take first (.inl same.symm))
      · exact .inl later
      · exact .inr (database_of_take first (.inr before))

end Settings

/-- Settings that name no database have been read where none is set from outside. -/
theorem setting?_of_readSettings {env : Environment} {texts rest : List String} {s s' : Settings}
    (read : readSettings env texts s = (s', .ok rest)) (unnamed : s'.database = none) :
    setting? env.database = none := by
  rw [readSettings] at read
  split at read
  · cases read
  next arguments _ =>
    split at read
    · cases read
    next taken =>
      cases read
      rw [takeSettings] at taken
      split at taken
      · cases taken
      next all =>
        split at taken
        next given =>
          cases taken
          have among : Setting.database ∈ keys arguments := by
            obtain ⟨argument, there, same⟩ := List.any_eq_true.1 given
            exact List.mem_eraseDups.2
              (List.mem_filterMap.2 ⟨argument, there, of_decide_eq_true same⟩)
          exact absurd unnamed (Settings.database_of_takeAll all (.inl among))
        · split at taken
          · assumption
          · split at taken <;> cases taken
            cases unnamed

/-- **A command without a database to use** is read where none is set from outside. -/
theorem Request.setting?_database {env : Environment} {texts : List String} {command : Command}
    (asked : (Request.ofArguments env texts).command = .ok command)
    (unnamed : (Request.ofArguments env texts).settings.database = none) :
    setting? env.database = none := by
  unfold Request.ofArguments at asked unnamed
  split at asked
  · cases asked
  · cases asked
  next read =>
    simp only [read] at unnamed
    split at asked
    next ofName =>
      simp only [ofName] at unnamed
      exact setting?_of_readSettings read unnamed
    next => split at asked <;> cases asked

end FileTags
