/-
  Queries inside queries.

  A query that is put into parentheses is a unit of the longer query, whatever it ends with and
  whatever follows.

  * `Derives.append`: what is a phrase stays one in front of a closing parenthesis;
  * `parse_of_derives` and `exists_derives_of_parse`: a text denotes an expression if its tokens
    derive it as a chain, and only then unless it denotes all files;
  * `Query.parse_group`, `parse_both`, `parse_either` and `parse_opposite`: what a query in
    parentheses denotes, alone, beside another one, beside another one with `or`, and after `not`.
-/
import FileTags.Query
import FileTags.Proofs.Query.Grammar
import FileTags.Proofs.Query.Lexing

namespace FileTags.Query

variable {kind : Phrase} {ts ts' rest suffix : List Token} {e e₁ e₂ : Expr} {q q₁ q₂ : String}

/-! ## Phrases -/

/-- A token that does not follow a phrase does not follow it when a closing parenthesis is added. -/
theorem head?_append_ne {t : Token} (ne : rest.head? ≠ some t)
    (closes : suffix.head? = some .endParen) (other : t ≠ .endParen) :
    (rest ++ suffix).head? ≠ some t := by
  cases rest with
  | nil => simpa [closes] using other.symm
  | cons t' rest => exact ne

/-- **A phrase stays a phrase** in front of a closing parenthesis. -/
theorem Derives.append (d : Derives kind ts rest e) (closes : suffix.head? = some .endParen) :
    Derives kind (ts ++ suffix) (rest ++ suffix) e := by
  induction d with
  | tag free => exact .tag (head?_append_ne free closes nofun)
  | pair => exact .pair
  | key free => exact .key fun text => head?_append_ne (free text) closes nofun
  | value => exact .value
  | colon free _ ih => exact .colon (fun text => head?_append_ne (free text) closes nofun) ih
  | not _ ih => exact .not ih
  | group _ ih => exact .group ih
  | last _ ih => exact .last ih
  | or _ _ ih ih' => exact .or ih ih'
  | and _ _ ih ih' => exact .and ih ih'

/-- A chain in parentheses is a unit, whatever follows. -/
theorem derives_group (d : Derives .chain ts [] e) (rest : List Token) :
    Derives .unit ([.startParen] ++ ts ++ [.endParen] ++ rest) rest e := by
  have inside : Derives .chain (ts ++ .endParen :: rest) (.endParen :: rest) e := d.append rfl
  simpa using Derives.group inside

/-! ## Texts -/

theorem parse_of_derives (read : lex q = .ok ts) (d : Derives .chain ts [] e) :
    parse q = .ok e := by
  rw [parse, read]
  show (parseTokens ts).mapError QueryError.parse = .ok e
  rw [parseTokens_eq_resume d.ne_nil, resume_of_derives d]
  rfl

theorem exists_derives_of_parse (h : parse q = .ok e) (ne : e ≠ .every) :
    ∃ ts, lex q = .ok ts ∧ Derives .chain ts [] e := by
  unfold parse at h
  split at h
  · cases h
  · next ts read =>
    refine ⟨ts, read, ?_⟩
    cases ts with
    | nil => exact absurd (Except.ok.inj h).symm ne
    | cons t ts =>
      rw [parseTokens_eq_resume (List.cons_ne_nil t ts)] at h
      cases ok : resume initial (t :: ts) with
      | error fault => rw [ok] at h; cases h
      | ok e' =>
        rw [ok] at h
        obtain rfl := Except.ok.inj h
        exact derives_of_resume ok

/-- The characters of a query in parentheses stand for its tokens in parentheses. -/
theorem lexesTo_group (read : lex q = .ok ts) :
    LexesTo ('(' :: q.toList ++ [')']) ([.startParen] ++ ts ++ [.endParen]) := by
  have opening : LexesTo ['('] [.startParen] := lexesTo_separator rfl
  have closed : LexesTo (q.toList ++ [')']) (ts ++ [.endParen]) := lexesTo_of_lex read rfl
  simpa using opening.append closed

/-! ## Queries in parentheses -/

section
variable (h₁ : parse q₁ = .ok e₁) (ne₁ : e₁ ≠ .every) (h₂ : parse q₂ = .ok e₂) (ne₂ : e₂ ≠ .every)
include h₁ ne₁

/-- A query in parentheses denotes what it denotes without them. -/
theorem parse_group : parse ("(" ++ q₁ ++ ")") = .ok e₁ := by
  obtain ⟨ts, read, d⟩ := exists_derives_of_parse h₁ ne₁
  have group := derives_group d []
  rw [List.append_nil] at group
  exact parse_of_derives (LexesTo.lex (by simpa using lexesTo_group read)) (.last group)

theorem parse_opposite : parse ("not (" ++ q₁ ++ ")") = .ok (.not e₁) := by
  obtain ⟨ts, read, d⟩ := exists_derives_of_parse h₁ ne₁
  have text := lexesTo_not.append (lexesTo_group read)
  have group := derives_group d []
  rw [List.append_nil] at group
  exact parse_of_derives (LexesTo.lex (by simpa using text)) (.last (.not group))

include h₂ ne₂

theorem parse_both : parse ("(" ++ q₁ ++ ") (" ++ q₂ ++ ")") = .ok (.and e₁ e₂) := by
  obtain ⟨ts₁, read₁, d₁⟩ := exists_derives_of_parse h₁ ne₁
  obtain ⟨ts₂, read₂, d₂⟩ := exists_derives_of_parse h₂ ne₂
  have space : LexesTo [' '] [] := lexesTo_separator rfl
  have left := derives_group d₁ ([.startParen] ++ ts₂ ++ [.endParen])
  have right := derives_group d₂ []
  rw [List.append_nil] at right
  have text := (lexesTo_group read₁).append (space.append (lexesTo_group read₂))
  exact parse_of_derives (LexesTo.lex (by simpa using text))
    (by simpa using Derives.and left (.last right))

theorem parse_either : parse ("(" ++ q₁ ++ ") or (" ++ q₂ ++ ")") = .ok (.or e₁ e₂) := by
  obtain ⟨ts₁, read₁, d₁⟩ := exists_derives_of_parse h₁ ne₁
  obtain ⟨ts₂, read₂, d₂⟩ := exists_derives_of_parse h₂ ne₂
  have left := derives_group d₁ (.or :: ([.startParen] ++ ts₂ ++ [.endParen]))
  have right := derives_group d₂ []
  rw [List.append_nil] at right
  have text := (lexesTo_group read₁).append (lexesTo_or.append (lexesTo_group read₂))
  exact parse_of_derives (LexesTo.lex (by simpa using text))
    (by simpa using Derives.or left (.last right))

end

end FileTags.Query
