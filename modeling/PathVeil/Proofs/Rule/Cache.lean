import PathVeil.Engine
import PathVeil.Proofs.Rule.Compilation
import PathVeil.Rule.Cache

/-!
# PathVeil.Proofs.Rule.Cache

The cache shows in no answer. Keys may collide, so an entry alone says nothing
about the rules that are asked for; what makes it safe is that it keeps the
rules it was made from.

## Proof shape

`Cache.Sound` is the invariant: what stands under a key is a list of rules with
that key, and what *these* rules compile to. The only operation that changes a
cache is `insert`, and it preserves the invariant if it is given what the rules
compile to (`Sound.insert`); `compileAndInsert` and `getOrCompile` follow.

The key leaves out parts of the rules. `Rule.compile_map_restored` says that
compilation does not look at them either.
-/

namespace PathVeil

/-! ### What compilation looks at -/

namespace Rule

/-- The part of a rule that a fingerprint shows, with all else at its default. -/
def restored (part : String × Option String × String × Option Bool) : Rule where
  name := part.1
  pattern := part.2.1
  replaceWith := part.2.2.1
  enabled := part.2.2.2

/-- Compilation sees no more of the rules than their fingerprint. -/
theorem compile_map_restored (rules : List Rule) :
    compile ((fingerprint rules).map restored) = compile rules := by
  have hfaults : ((fingerprint rules).map restored).filterMap compileFault? =
      rules.filterMap compileFault? := by
    rw [fingerprint, List.map_map, List.filterMap_map]
    rfl
  have hcompiled : ((fingerprint rules).map restored).filterMap compiled? =
      rules.filterMap compiled? := by
    rw [fingerprint, List.map_map, List.filterMap_map]
    rfl
  rw [compile_eq, compile_eq, hfaults, hcompiled]

/-- Rules that differ only in what the fingerprint leaves out compile alike, or
fail alike. -/
theorem compile_eq_of_fingerprint_eq {first second : List Rule}
    (h : fingerprint first = fingerprint second) : compile first = compile second := by
  rw [← compile_map_restored first, h, compile_map_restored]

end Rule

/-! ### What a cache holds -/

namespace Cache

variable {κ : Type}

/-- There is one entry for a key at most. It belongs under this key, and its
result is what its rules compile to. -/
structure Sound (key : Fingerprint → κ) (cache : Cache κ) : Prop where
  nodup : (cache.entries.map (·.1)).Nodup
  key_eq : ∀ k rules shared, (k, rules, shared) ∈ cache.entries →
    key (Rule.fingerprint rules) = k
  compile_eq : ∀ k rules shared, (k, rules, shared) ∈ cache.entries →
    Rule.compile rules = .ok shared.rules

theorem Sound.empty (key : Fingerprint → κ) : Sound key {} where
  nodup := List.nodup_nil
  key_eq _ _ _ h := nomatch h
  compile_eq _ _ _ h := nomatch h

variable [DecidableEq κ]

theorem mem_of_lookup?_eq_some {cache : Cache κ} {k : κ} {rules : List Rule} {shared : SharedRules}
    (h : cache.lookup? k = some (rules, shared)) : (k, rules, shared) ∈ cache.entries := by
  rw [lookup?, Option.map_eq_some_iff] at h
  obtain ⟨⟨k', found⟩, hfind, rfl⟩ := h
  have hkey : k' = k := by simpa using List.find?_some hfind
  rw [← hkey]
  exact List.mem_of_find?_eq_some hfind

/-- A hit is an entry for the very rules that were asked for. -/
theorem mem_of_hit?_eq_some {cache : Cache κ} {k : κ} {rules : List Rule} {shared : SharedRules}
    (h : cache.hit? k rules = some shared) : (k, rules, shared) ∈ cache.entries := by
  rw [hit?] at h
  cases hlookup : cache.lookup? k with
  | none => rw [hlookup] at h; cases h
  | some found =>
    obtain ⟨known, kept⟩ := found
    rw [hlookup] at h
    by_cases hknown : known = rules
    · simp only [if_pos hknown, Option.some.injEq] at h
      rw [← hknown, ← h]
      exact mem_of_lookup?_eq_some hlookup
    · simp only [if_neg hknown] at h
      cases h

namespace Sound

variable {key : Fingerprint → κ} {cache : Cache κ} {rules : List Rule}

/-- A hit is what compilation would give. -/
theorem compile_of_hit? (h : cache.Sound key) {shared : SharedRules}
    (hhit : cache.hit? (key (Rule.fingerprint rules)) rules = some shared) :
    Rule.compile rules = .ok shared.rules :=
  h.compile_eq _ _ _ (mem_of_hit?_eq_some hhit)

/-- What was compiled may be put in, whatever stood under its key before. -/
theorem insert (h : cache.Sound key) {compiled : List CompiledRule}
    (hcompiled : Rule.compile rules = .ok compiled) :
    (cache.insert (key (Rule.fingerprint rules)) rules compiled).2.Sound key where
  nodup := by
    refine List.nodup_cons.mpr ⟨?_, ?_⟩
    · simp
    · exact h.nodup.sublist (List.filter_sublist.map _)
  key_eq k known shared hmem := by
    rcases List.mem_cons.mp hmem with hnew | hold
    · obtain ⟨rfl, hrest⟩ := Prod.mk.inj hnew
      obtain ⟨rfl, -⟩ := Prod.mk.inj hrest
      rfl
    · exact h.key_eq k known shared (List.mem_filter.mp hold).1
  compile_eq k known shared hmem := by
    rcases List.mem_cons.mp hmem with hnew | hold
    · obtain ⟨-, hrest⟩ := Prod.mk.inj hnew
      obtain ⟨rfl, rfl⟩ := Prod.mk.inj hrest
      exact hcompiled
    · exact h.compile_eq k known shared (List.mem_filter.mp hold).1

theorem compileAndInsert (h : cache.Sound key) (rules : List Rule) :
    (cache.compileAndInsert key rules).2.Sound key := by
  rw [Cache.compileAndInsert]
  cases hcompile : Rule.compile rules with
  | error fault => exact h
  | ok compiled => exact h.insert hcompile

theorem getOrCompile (h : cache.Sound key) (rules : List Rule) :
    (cache.getOrCompile key rules).2.Sound key := by
  rw [Cache.getOrCompile]
  cases cache.hit? (key (Rule.fingerprint rules)) rules with
  | some shared => exact h
  | none => exact h.compileAndInsert rules

end Sound

/-! ### What comes out of it -/

section Answers

variable {key : Fingerprint → κ} {cache : Cache κ} {rules : List Rule}

/-- Compiling and keeping answers with what was compiled. -/
theorem compileAndInsert_answer (key : Fingerprint → κ) (cache : Cache κ) (rules : List Rule) :
    (cache.compileAndInsert key rules).1.map SharedRules.rules = Rule.compile rules := by
  rw [compileAndInsert]
  cases Rule.compile rules with
  | error fault => rfl
  | ok compiled => rfl

/-- A failure is not kept. -/
theorem compileAndInsert_of_error {fault : Fault} (h : Rule.compile rules = .error fault) :
    cache.compileAndInsert key rules = (.error fault, cache) := by
  rw [compileAndInsert, h]

/-- From a sound cache comes what compilation would give, or its failure. -/
theorem getOrCompile_answer (h : cache.Sound key) (rules : List Rule) :
    (cache.getOrCompile key rules).1.map SharedRules.rules = Rule.compile rules := by
  rw [getOrCompile]
  cases hhit : cache.hit? (key (Rule.fingerprint rules)) rules with
  | some shared => exact (h.compile_of_hit? hhit).symm
  | none => exact compileAndInsert_answer key cache rules

end Answers

end Cache

/-! ### Engines -/

namespace Engine

variable {κ : Type} [DecidableEq κ]

/-- The engine of a configuration, with its rules from a cache. -/
def ofCache (key : Fingerprint → κ) (cache : Cache κ) (config : List Rule) :
    Except Failure Engine × Cache κ :=
  match cache.getOrCompile key config with
  | (.ok shared, cache) => (.ok ⟨shared.rules, config⟩, cache)
  | (.error fault, cache) => (.error ⟨.fault fault, some .compiling⟩, cache)

/-- It makes no difference to an engine where its rules come from. -/
theorem ofCache_eq_ofRules {key : Fingerprint → κ} {cache : Cache κ} (h : cache.Sound key)
    (config : List Rule) : (ofCache key cache config).1 = ofRules config := by
  rw [ofCache, ofRules, ← Cache.getOrCompile_answer h config]
  rcases cache.getOrCompile key config with ⟨answer, after⟩
  cases answer with
  | ok shared => rfl
  | error fault => rfl

end Engine

end PathVeil
