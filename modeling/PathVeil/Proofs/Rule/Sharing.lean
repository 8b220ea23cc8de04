import PathVeil.Proofs.Rule.Cache

/-!
# PathVeil.Proofs.Rule.Sharing

When two requests get the same object. There is room for one list of rules under
a key, the last that was compiled. So a request shares an object exactly if the
latest request before it with its key that was answered with an object was for
the very same rules, and then it shares that one; rules that differ only in what
the key leaves out push each other out.

## Proof shape

`getOrCompile_cases` lists what one request can do. `Remembers` is the invariant
that ties a cache to the requests and answers that it has seen: under each key
stands what the latest of them has left, and every object has a number below the
next one. A request preserves it (`Remembers.getOrCompile`), so every sequence
of requests does (`Remembers.after`). A hit is then an object of the past, and a
miss makes a number that nobody has.
-/

namespace PathVeil.Cache

variable {κ : Type} [DecidableEq κ]

/-! ### One request -/

section Request

variable {cache : Cache κ} {rules : List Rule}

theorem hit?_eq_some_iff {k : κ} {shared : SharedRules} :
    cache.hit? k rules = some shared ↔ cache.lookup? k = some (rules, shared) := by
  rw [hit?]
  cases cache.lookup? k with
  | none => simp
  | some found =>
    obtain ⟨known, kept⟩ := found
    by_cases hknown : known = rules
    · simp [hknown]
    · simp [hknown]

/-- What stands under a key after something was put in. -/
theorem lookup?_insert (cache : Cache κ) (k k' : κ) (rules : List Rule)
    (compiled : List CompiledRule) :
    (cache.insert k rules compiled).2.lookup? k' =
      if k = k' then some (rules, ⟨cache.made, compiled⟩) else cache.lookup? k' := by
  by_cases hk : k = k'
  · subst hk
    rw [lookup?_insert_self, if_pos rfl]
    rfl
  · have hfilter : (cache.entries.filter (·.1 ≠ k)).find? (·.1 = k') =
        cache.entries.find? (·.1 = k') := by
      rw [List.find?_filter]
      congr 1
      funext entry
      grind
    simp only [insert, lookup?]
    rw [List.find?_cons_of_neg (by simpa using hk), hfilter, if_neg hk]

/-- What a request can do: be served from the cache, fail, or have its rules
compiled. -/
theorem getOrCompile_cases (key : Fingerprint → κ) (cache : Cache κ) (rules : List Rule) :
    (∃ shared, cache.lookup? (key (Rule.fingerprint rules)) = some (rules, shared) ∧
      cache.getOrCompile key rules = (.ok shared, cache)) ∨
    ((∀ shared, cache.lookup? (key (Rule.fingerprint rules)) ≠ some (rules, shared)) ∧
      ((∃ fault, Rule.compile rules = .error fault ∧
        cache.getOrCompile key rules = (.error fault, cache)) ∨
      ∃ compiled, Rule.compile rules = .ok compiled ∧
        cache.getOrCompile key rules = (.ok ⟨cache.made, compiled⟩,
          (cache.insert (key (Rule.fingerprint rules)) rules compiled).2))) := by
  cases hhit : cache.hit? (key (Rule.fingerprint rules)) rules with
  | some shared => exact .inl ⟨shared, hit?_eq_some_iff.mp hhit, by simp only [getOrCompile, hhit]⟩
  | none =>
    refine .inr ⟨fun shared hlookup => ?_, ?_⟩
    · rw [hit?_eq_some_iff.mpr hlookup] at hhit
      cases hhit
    · cases hcompile : Rule.compile rules with
      | error fault =>
        exact .inl ⟨fault, rfl, by simp only [getOrCompile, hhit, compileAndInsert, hcompile]⟩
      | ok compiled =>
        refine .inr ⟨compiled, rfl, ?_⟩
        simp only [getOrCompile, hhit, compileAndInsert, hcompile]
        rfl

end Request

/-! ### Requests in a row -/

/-- A request and its answer. -/
abbrev Exchange := List Rule × Except Fault SharedRules

/-- The cache after a sequence of requests. -/
def after (key : Fingerprint → κ) (cache : Cache κ) (requests : List (List Rule)) : Cache κ :=
  requests.foldl (fun cache rules => (cache.getOrCompile key rules).2) cache

/-- The requests of a sequence, each with its answer. -/
def exchanges (key : Fingerprint → κ) (cache : Cache κ) (requests : List (List Rule)) :
    List Exchange :=
  requests.zip (cache.getAll key requests)

section Sequences

variable (key : Fingerprint → κ) (cache : Cache κ)

theorem getAll_cons (rules : List Rule) (requests : List (List Rule)) :
    cache.getAll key (rules :: requests) = (cache.getOrCompile key rules).1 ::
      (cache.getOrCompile key rules).2.getAll key requests := rfl

theorem exchanges_cons (rules : List Rule) (requests : List (List Rule)) :
    cache.exchanges key (rules :: requests) = (rules, (cache.getOrCompile key rules).1) ::
      (cache.getOrCompile key rules).2.exchanges key requests := rfl

/-- Later requests have no influence on those before them. -/
theorem take_exchanges (requests : List (List Rule)) (i : Nat) :
    (cache.exchanges key requests).take i = cache.exchanges key (requests.take i) := by
  induction requests generalizing cache i with
  | nil => simp [exchanges]
  | cons rules requests ih =>
    cases i with
    | zero => rfl
    | succ i => rw [exchanges_cons, List.take_succ_cons, ih, List.take_succ_cons, exchanges_cons]

variable {requests : List (List Rule)} {i : Nat} {rules : List Rule}

/-- Each request meets the cache that those before it have left. -/
theorem getElem?_getAll (h : requests[i]? = some rules) :
    (cache.getAll key requests)[i]? =
      some ((cache.after key (requests.take i)).getOrCompile key rules).1 := by
  induction requests generalizing cache i with
  | nil => cases h
  | cons first requests ih =>
    cases i with
    | zero =>
      cases h
      rfl
    | succ i => exact ih (cache.getOrCompile key first).2 h

theorem after_take_succ (h : requests[i]? = some rules) :
    cache.after key (requests.take (i + 1)) =
      ((cache.after key (requests.take i)).getOrCompile key rules).2 := by
  rw [after, List.take_add_one, h, Option.toList_some, List.foldl_append]
  rfl

end Sequences

/-! ### What a cache knows of the past -/

/-- What an exchange leaves under a key: an object, if it has one and this is its
key, and the rules that the object was asked for. -/
def leaves? (key : Fingerprint → κ) (k : κ) : Exchange → Option (List Rule × SharedRules)
  | (rules, .ok shared) => if key (Rule.fingerprint rules) = k then some (rules, shared) else none
  | (_, .error _) => none

/-- What the latest of the past exchanges that left anything under a key has left. -/
def last? (key : Fingerprint → κ) (k : κ) (past : List Exchange) :
    Option (List Rule × SharedRules) :=
  past.reverse.findSome? (leaves? key k)

/-- Among the past exchanges under a key that have an object, the latest was a
request for these rules, and this is the object. -/
def Latest (key : Fingerprint → κ) (k : κ) (past : List Exchange) (rules : List Rule)
    (shared : SharedRules) : Prop :=
  ∃ earlier later, past = earlier ++ (rules, .ok shared) :: later ∧
    key (Rule.fingerprint rules) = k ∧
    ∀ other result, (other, .ok result) ∈ later → key (Rule.fingerprint other) ≠ k

/-- Some past exchange has this very object. -/
def Returned (past : List Exchange) (shared : SharedRules) : Prop :=
  ∃ rules known, (rules, .ok known) ∈ past ∧ known.serial = shared.serial

/-- Under each key stands what the latest exchange has left, and the next number
is one that no object has. -/
structure Remembers (key : Fingerprint → κ) (past : List Exchange) (cache : Cache κ) : Prop where
  lookup?_eq : ∀ k, cache.lookup? k = last? key k past
  serial_lt : ∀ rules shared, (rules, .ok shared) ∈ past → shared.serial < cache.made

section Past

variable {key : Fingerprint → κ} {k : κ} {past : List Exchange} {cache : Cache κ}
  {rules : List Rule} {shared : SharedRules}

theorem leaves?_eq_some_iff {exchange : Exchange} :
    leaves? key k exchange = some (rules, shared) ↔
      exchange = (rules, .ok shared) ∧ key (Rule.fingerprint rules) = k := by
  obtain ⟨asked, answer⟩ := exchange
  cases answer with
  | error fault => simp [leaves?]
  | ok result =>
    by_cases hk : key (Rule.fingerprint asked) = k
    · simp only [leaves?, if_pos hk, Option.some.injEq, Prod.mk.injEq, Except.ok.injEq]
      exact ⟨fun h => ⟨h, h.1 ▸ hk⟩, And.left⟩
    · simp only [leaves?, if_neg hk, reduceCtorEq, Prod.mk.injEq, false_iff]
      rintro ⟨⟨rfl, -⟩, hkey⟩
      exact hk hkey

theorem leaves?_eq_none_iff {exchange : Exchange} :
    leaves? key k exchange = none ↔
      ∀ other result, exchange = (other, .ok result) → key (Rule.fingerprint other) ≠ k := by
  rw [Option.eq_none_iff_forall_not_mem]
  constructor
  · intro h other result hexchange hkey
    exact h (other, result) (leaves?_eq_some_iff.mpr ⟨hexchange, hkey⟩)
  · rintro h ⟨other, result⟩ hleaves
    obtain ⟨hexchange, hkey⟩ := leaves?_eq_some_iff.mp hleaves
    exact h other result hexchange hkey

theorem last?_concat (key : Fingerprint → κ) (k : κ) (past : List Exchange) (exchange : Exchange) :
    last? key k (past ++ [exchange]) = (leaves? key k exchange).or (last? key k past) := by
  rw [last?, List.reverse_append, List.reverse_singleton, List.singleton_append,
    List.findSome?_cons]
  cases leaves? key k exchange <;> rfl

theorem last?_eq_some_iff :
    last? key k past = some (rules, shared) ↔ Latest key k past rules shared := by
  rw [last?, List.findSome?_eq_some_iff]
  constructor
  · rintro ⟨later, exchange, earlier, hpast, hleaves, hnone⟩
    obtain ⟨rfl, hkey⟩ := leaves?_eq_some_iff.mp hleaves
    refine ⟨earlier.reverse, later.reverse, ?_, hkey, fun other result hmem => ?_⟩
    · rw [List.reverse_eq_iff] at hpast
      simpa using hpast
    · exact leaves?_eq_none_iff.mp (hnone _ (List.mem_reverse.mp hmem)) other result rfl
  · rintro ⟨earlier, later, rfl, hkey, hlater⟩
    refine ⟨later.reverse, (rules, .ok shared), earlier.reverse, by simp,
      leaves?_eq_some_iff.mpr ⟨rfl, hkey⟩, fun exchange hmem => ?_⟩
    rw [leaves?_eq_none_iff]
    rintro other result rfl
    exact hlater other result (List.mem_reverse.mp hmem)

omit [DecidableEq κ] in
theorem Latest.returned (h : Latest key k past rules shared) : Returned past shared := by
  obtain ⟨earlier, later, rfl, -, -⟩ := h
  exact ⟨rules, shared, by simp, rfl⟩

namespace Remembers

theorem empty (key : Fingerprint → κ) : Remembers key [] {} where
  lookup?_eq _ := rfl
  serial_lt _ _ h := nomatch h

/-- What stands under a key. -/
theorem lookup?_eq_some_iff (h : Remembers key past cache) :
    cache.lookup? k = some (rules, shared) ↔ Latest key k past rules shared := by
  rw [h.lookup?_eq, last?_eq_some_iff]

/-- One request preserves this. -/
theorem getOrCompile (h : Remembers key past cache) (rules : List Rule) :
    Remembers key (past ++ [(rules, (cache.getOrCompile key rules).1)])
      (cache.getOrCompile key rules).2 := by
  obtain ⟨shared, hlookup, hget⟩ | ⟨-, ⟨fault, -, hget⟩ | ⟨compiled, -, hget⟩⟩ :=
    getOrCompile_cases key cache rules
  · -- What is left under the key once more stands there already.
    rw [hget]
    refine ⟨fun k => ?_, fun asked known hmem => ?_⟩
    · rw [last?_concat, ← h.lookup?_eq, leaves?]
      by_cases hk : key (Rule.fingerprint rules) = k
      · rw [if_pos hk, Option.some_or, ← hk, hlookup]
      · rw [if_neg hk, Option.none_or]
    · rcases List.mem_append.mp hmem with hold | hnew
      · exact h.serial_lt asked known hold
      · cases List.mem_singleton.mp hnew
        obtain ⟨earlier, later, rfl, -, -⟩ := h.lookup?_eq_some_iff.mp hlookup
        exact h.serial_lt rules shared (by simp)
  · rw [hget]
    refine ⟨fun k => ?_, fun asked known hmem => ?_⟩
    · rw [last?_concat, ← h.lookup?_eq]
      rfl
    · rcases List.mem_append.mp hmem with hold | hnew
      · exact h.serial_lt asked known hold
      · cases List.mem_singleton.mp hnew
  · rw [hget]
    refine ⟨fun k => ?_, fun asked known hmem => ?_⟩
    · rw [lookup?_insert, last?_concat, ← h.lookup?_eq, leaves?]
      split <;> rfl
    · rcases List.mem_append.mp hmem with hold | hnew
      · exact Nat.lt_succ_of_lt (h.serial_lt asked known hold)
      · cases List.mem_singleton.mp hnew
        exact Nat.lt_succ_self _

/-- So does any number of requests. -/
theorem after (h : Remembers key past cache) (requests : List (List Rule)) :
    Remembers key (past ++ cache.exchanges key requests) (cache.after key requests) := by
  induction requests generalizing past cache with
  | nil =>
    rw [exchanges, List.zip_nil_left, List.append_nil]
    exact h
  | cons rules requests ih =>
    have hrest := ih (h.getOrCompile rules)
    rw [List.append_assoc, List.singleton_append] at hrest
    exact hrest

end Remembers

/-! ### Sharing -/

variable (h : Remembers key past cache)
include h

/-- A request for the rules of the latest exchange under its key gets the object
of that exchange. -/
theorem Remembers.getOrCompile_of_latest
    (hlatest : Latest key (key (Rule.fingerprint rules)) past rules shared) :
    (cache.getOrCompile key rules).1 = .ok shared := by
  have hlookup := h.lookup?_eq_some_iff.mpr hlatest
  rw [Cache.getOrCompile, hit?_eq_some_iff.mpr hlookup]

/-- A request gets an object of the past in no other way. -/
theorem Remembers.latest_of_returned (hanswer : (cache.getOrCompile key rules).1 = .ok shared)
    (hreturned : Returned past shared) :
    Latest key (key (Rule.fingerprint rules)) past rules shared := by
  obtain ⟨found, hlookup, hget⟩ | ⟨-, ⟨fault, -, hget⟩ | ⟨compiled, -, hget⟩⟩ :=
    getOrCompile_cases key cache rules
  · rw [hget] at hanswer
    cases hanswer
    exact h.lookup?_eq_some_iff.mp hlookup
  · rw [hget] at hanswer
    cases hanswer
  · -- The object is new: its number is above all those of the past.
    rw [hget] at hanswer
    cases hanswer
    obtain ⟨asked, known, hmem, hserial⟩ := hreturned
    exact absurd hserial (Nat.ne_of_lt (h.serial_lt asked known hmem))

end Past

section Failure

variable {key : Fingerprint → κ} {cache : Cache κ} {rules : List Rule}

/-- A request that fails leaves the cache as it was. -/
theorem getOrCompile_cache_of_error {fault : Fault}
    (hanswer : (cache.getOrCompile key rules).1 = .error fault) :
    (cache.getOrCompile key rules).2 = cache := by
  obtain ⟨found, -, hget⟩ | ⟨-, ⟨fault, -, hget⟩ | ⟨compiled, -, hget⟩⟩ :=
    getOrCompile_cases key cache rules
  · rw [hget]
  · rw [hget]
  · rw [hget] at hanswer
    cases hanswer

/-- Without it, all other answers are the same. -/
theorem getAll_eraseIdx_of_error {requests : List (List Rule)} {i : Nat} {fault : Fault}
    (hanswer : (cache.getAll key requests)[i]? = some (.error fault)) :
    cache.getAll key (requests.eraseIdx i) = (cache.getAll key requests).eraseIdx i := by
  induction requests generalizing cache i with
  | nil => rfl
  | cons rules requests ih =>
    cases i with
    | zero =>
      rw [List.eraseIdx_cons_zero, getAll_cons, List.eraseIdx_cons_zero,
        getOrCompile_cache_of_error (Option.some.inj hanswer)]
    | succ i =>
      have hrest : (cache.getOrCompile key rules).2.getAll key (requests.eraseIdx i) =
          ((cache.getOrCompile key rules).2.getAll key requests).eraseIdx i := ih hanswer
      rw [List.eraseIdx_cons_succ, getAll_cons, getAll_cons, List.eraseIdx_cons_succ, hrest]

end Failure

theorem Sound.after {key : Fingerprint → κ} {cache : Cache κ} (h : cache.Sound key)
    (requests : List (List Rule)) : (cache.after key requests).Sound key := by
  induction requests generalizing cache with
  | nil => exact h
  | cons rules requests ih => exact ih (h.getOrCompile rules)

/-! ### The main result -/

end PathVeil.Cache
