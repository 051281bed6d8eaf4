/-
  The configuration of a database: which tags may be written, and which names stand for several
  tags.

  A whitelist, if there is one, names all that is allowed; a blacklist, if there is one, names
  what is not.  Both name a bare word by itself and an attribute by its key and colon.  An alias
  stands for a list of tags; what it stands for is not expanded again.

  * `Config.allows` decides about a name, `Config.allowsTag` about a tag;
  * `Config.expand` replaces an alias by its tags;
  * `tagsToAdd` are the tags that are written for a text, `tagsToRemove` the ones that are
    removed: only writing is restricted.
-/
import FileTags.Record
import FileTags.Tag

namespace FileTags

/-- The version of a configuration; a truth value may stand in for a number. -/
inductive Version where
  | number (n : Int)
  | flag (b : Bool)
deriving DecidableEq

/-- The newest version of a configuration that can be read. -/
def Version.newest : Int := 1

/-- A configuration. A list that is absent is not in effect; an empty one is. -/
structure Config where
  whitelist : Option (List String) := none
  blacklist : Option (List String) := none
  /-- The aliases in their order, each name once. -/
  aliases : List (String × List String) := []
  version : Version := .number Version.newest
deriving DecidableEq, Inhabited

namespace Config

/-- The members of a list of names, each once, in ascending order. -/
def nameSet (names : List String) : List String := sortTexts names.eraseDups

/-- Aliases with one more: a name that is there keeps its place and takes the new tags. -/
def putAlias (name : String) (tags : List String) :
    List (String × List String) → List (String × List String)
  | [] => [(name, tags)]
  | (n, ts) :: rest => if n = name then (name, tags) :: rest else (n, ts) :: putAlias name tags rest

/-- What an alias stands for. -/
def alias? (c : Config) (name : String) : Option (List String) := c.aliases.lookup name

/-- Whether the lists allow a name. -/
def allows (c : Config) (name : String) : Bool :=
  c.whitelist.all (decide <| name ∈ ·) && c.blacklist.all (decide <| name ∉ ·)

/-- Whether a tag may be written. -/
def allowsTag (c : Config) (t : Tag) : Bool := c.allows t.policyName

/-- The texts that a text stands for. -/
def expand (c : Config) (raw : String) : List String := (c.alias? raw).getD [raw]

/-- The tags that are removed for a text. -/
def tagsToRemove (c : Config) (raw : String) : List Tag := (c.expand raw).map Tag.ofString

/-- The tags that are written for a text. -/
def tagsToAdd (c : Config) (raw : String) : List Tag := (c.tagsToRemove raw).filter c.allowsTag

theorem allows_iff {c : Config} {name : String} :
    c.allows name = true ↔
      (∀ names, c.whitelist = some names → name ∈ names) ∧
      ∀ names, c.blacklist = some names → name ∉ names := by
  cases hw : c.whitelist <;> cases hb : c.blacklist <;> simp [allows, hw, hb]

end Config

end FileTags
