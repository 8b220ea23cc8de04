import PathVeil.Rule.Compilation

/-!
# PathVeil.Rule.Cache

Compiled rule lists, kept for later use. An entry is found by a key computed
from the parts of the rules that decide what they compile to. Different rule
lists may have the same key, so an entry is used only for the very rules it was
made from, and is otherwise replaced.

Every list that is compiled gets a serial number, which tells shared results
from equal ones.
-/

namespace PathVeil

/-- What the key of a rule list is computed from: for each rule its name, its
pattern, its replacement and its switch. -/
abbrev Fingerprint := List (String × Option String × String × Option Bool)

/-- The fingerprint of a rule list. -/
def Rule.fingerprint (rules : List Rule) : Fingerprint :=
  rules.map fun rule => (rule.name, rule.pattern, rule.replaceWith, rule.enabled)

/-- A compiled rule list that several users may hold. -/
structure SharedRules where
  /-- Two results are the same object if they have the same number. -/
  serial : Nat
  rules : List CompiledRule
  deriving DecidableEq, Repr

/-- Compiled rules by key. -/
structure Cache (κ : Type) where
  /-- For each key the rules that were compiled last and their result. -/
  entries : List (κ × List Rule × SharedRules) := []
  /-- The number of results made so far. -/
  made : Nat := 0
  deriving Repr

namespace Cache

variable {κ : Type} [DecidableEq κ]

/-- The entry of a key. -/
def lookup? (cache : Cache κ) (key : κ) : Option (List Rule × SharedRules) :=
  (cache.entries.find? (·.1 = key)).map (·.2)

/-- The result under the key, if it was made from these rules. -/
def hit? (cache : Cache κ) (key : κ) (rules : List Rule) : Option SharedRules :=
  match cache.lookup? key with
  | none => none
  | some (known, shared) => if known = rules then some shared else none

/-- Makes a new result of the compiled rules and keeps it under the key, in the
place of what was there. -/
def insert (cache : Cache κ) (key : κ) (rules : List Rule) (compiled : List CompiledRule) :
    SharedRules × Cache κ :=
  let shared : SharedRules := ⟨cache.made, compiled⟩
  (shared, {
    entries := (key, rules, shared) :: cache.entries.filter (·.1 ≠ key)
    made := cache.made + 1 })

theorem lookup?_insert_self (cache : Cache κ) (key : κ) (rules : List Rule)
    (compiled : List CompiledRule) :
    (cache.insert key rules compiled).2.lookup? key =
      some (rules, (cache.insert key rules compiled).1) := by
  simp [insert, lookup?]

/-- The second half of a request that found nothing: compiles the rules and
keeps the result. A failure is not kept. -/
def compileAndInsert (key : Fingerprint → κ) (cache : Cache κ) (rules : List Rule) :
    Except Fault SharedRules × Cache κ :=
  match Rule.compile rules with
  | .error fault => (.error fault, cache)
  | .ok compiled =>
    let (shared, cache) := cache.insert (key (Rule.fingerprint rules)) rules compiled
    (.ok shared, cache)

/-- The compiled rules, from the cache or new. -/
def getOrCompile (key : Fingerprint → κ) (cache : Cache κ) (rules : List Rule) :
    Except Fault SharedRules × Cache κ :=
  match cache.hit? (key (Rule.fingerprint rules)) rules with
  | some shared => (.ok shared, cache)
  | none => cache.compileAndInsert key rules

/-- The answers to a sequence of requests. -/
def getAll (key : Fingerprint → κ) (cache : Cache κ) :
    List (List Rule) → List (Except Fault SharedRules)
  | [] => []
  | rules :: requests =>
    let (answer, cache) := cache.getOrCompile key rules
    answer :: getAll key cache requests

end Cache

end PathVeil
