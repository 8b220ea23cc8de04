import PathVeil.Proofs.Rule.Cache
import PathVeil.Rule.Contention

/-!
# PathVeil.Proofs.Rule.Contention

However requests take their turns, each is answered as if there were no cache.
Between the two turns of a request others may put in results, under the same key
too, and may replace what they find there.

## Proof shape

`Request.turn_cases` lists what one turn can do. `Crowd.Coherent` is the
invariant: the cache is sound, and whoever is done has the right answer. A turn
preserves it (`Coherent.turn`), so every schedule does (`Coherent.run`). That a
request does get its answer is counted down: each of its own turns takes one off
`Stage.turnsLeft`, and those of others take nothing (`exists_request_run`).
-/

namespace PathVeil.Cache

variable {κ : Type} [DecidableEq κ] {key : Fingerprint → κ}

/-! ### One turn -/

theorem Stage.turnsLeft_le_two (stage : Stage) : stage.turnsLeft ≤ 2 := by
  cases stage with
  | waiting => exact Nat.le_refl _
  | missed => exact Nat.le_succ _
  | answered answer => exact Nat.zero_le _

namespace Request

variable {request : Request} {cache : Cache κ}

/-- What a turn can do: find a result, find none, compile, or nothing. -/
theorem turn_cases (key : Fingerprint → κ) (request : Request) (cache : Cache κ) :
    (∃ shared, request.stage = .waiting ∧
      cache.hit? (key (Rule.fingerprint request.rules)) request.rules = some shared ∧
      request.turn key cache = (⟨request.rules, .answered (.ok shared)⟩, cache)) ∨
    (request.stage = .waiting ∧
      cache.hit? (key (Rule.fingerprint request.rules)) request.rules = none ∧
      request.turn key cache = (⟨request.rules, .missed⟩, cache)) ∨
    (request.stage = .missed ∧ request.turn key cache =
      (⟨request.rules, .answered (cache.compileAndInsert key request.rules).1⟩,
        (cache.compileAndInsert key request.rules).2)) ∨
    (∃ answer, request.stage = .answered answer ∧ request.turn key cache = (request, cache)) := by
  obtain ⟨rules, stage⟩ := request
  cases stage with
  | waiting =>
    cases hhit : cache.hit? (key (Rule.fingerprint rules)) rules with
    | some shared => exact .inl ⟨shared, rfl, rfl, by simp only [turn, hhit]⟩
    | none => exact .inr (.inl ⟨rfl, rfl, by simp only [turn, hhit]⟩)
  | missed => exact .inr (.inr (.inl ⟨rfl, rfl⟩))
  | answered answer => exact .inr (.inr (.inr ⟨answer, rfl, rfl⟩))

@[simp] theorem turn_rules (key : Fingerprint → κ) (request : Request) (cache : Cache κ) :
    (request.turn key cache).1.rules = request.rules := by
  obtain ⟨_, -, -, h⟩ | ⟨-, -, h⟩ | ⟨-, h⟩ | ⟨_, -, h⟩ := turn_cases key request cache
  all_goals rw [h]

/-- The answer, if there is one, is what the rules compile to, or the failure to
compile them. -/
def Right (request : Request) : Prop :=
  ∀ answer, request.stage = .answered answer →
    answer.map SharedRules.rules = Rule.compile request.rules

/-- A turn gives no wrong answer. -/
theorem Right.turn (h : request.Right) (hsound : cache.Sound key) :
    (request.turn key cache).1.Right := by
  obtain ⟨shared, -, hhit, hturn⟩ | ⟨-, -, hturn⟩ | ⟨-, hturn⟩ | ⟨_, -, hturn⟩ :=
    turn_cases key request cache
  · rw [hturn]
    rintro _ ⟨⟩
    exact (hsound.compile_of_hit? hhit).symm
  · rw [hturn]
    rintro _ ⟨⟩
  · rw [hturn]
    rintro _ ⟨⟩
    exact compileAndInsert_answer key cache request.rules
  · rw [hturn]
    exact h

/-- A turn leaves a sound cache. -/
theorem sound_turn (hsound : cache.Sound key) (request : Request) :
    (request.turn key cache).2.Sound key := by
  obtain ⟨_, -, -, hturn⟩ | ⟨-, -, hturn⟩ | ⟨-, hturn⟩ | ⟨_, -, hturn⟩ :=
    turn_cases key request cache
  · rw [hturn]
    exact hsound
  · rw [hturn]
    exact hsound
  · rw [hturn]
    exact hsound.compileAndInsert request.rules
  · rw [hturn]
    exact hsound

/-- A turn is progress. -/
theorem turnsLeft_turn (key : Fingerprint → κ) (request : Request) (cache : Cache κ) :
    (request.turn key cache).1.stage.turnsLeft ≤ request.stage.turnsLeft - 1 := by
  obtain ⟨_, -, -, hturn⟩ | ⟨hstage, -, hturn⟩ | ⟨-, hturn⟩ | ⟨_, hstage, hturn⟩ :=
    turn_cases key request cache
  · rw [hturn]
    exact Nat.zero_le _
  · rw [hturn, hstage]
    exact Nat.le_refl _
  · rw [hturn]
    exact Nat.zero_le _
  · rw [hturn, hstage]
    exact Nat.le_refl _

/-- A request for rules that do not compile never touches the cache. -/
theorem turn_cache_of_error {fault : Fault} (h : Rule.compile request.rules = .error fault) :
    (request.turn key cache).2 = cache := by
  obtain ⟨_, -, -, hturn⟩ | ⟨-, -, hturn⟩ | ⟨-, hturn⟩ | ⟨_, -, hturn⟩ :=
    turn_cases key request cache
  · rw [hturn]
  · rw [hturn]
  · rw [hturn, compileAndInsert_of_error h]
  · rw [hturn]

end Request

/-! ### Many turns -/

namespace Crowd

variable {crowd : Crowd κ} {i j : Nat} {request : Request}

/-- What a turn does to the crowd. -/
theorem turn_eq (h : crowd.requests[i]? = some request) :
    crowd.turn key i = ⟨(request.turn key crowd.cache).2,
      crowd.requests.set i (request.turn key crowd.cache).1⟩ := by
  simp only [turn, h]

/-- A number that no request has stands for nobody. -/
theorem turn_of_eq_none (h : crowd.requests[i]? = none) : crowd.turn key i = crowd := by
  simp only [turn, h]

/-- The request whose turn it is. -/
theorem requests_turn_self (key : Fingerprint → κ) (h : crowd.requests[i]? = some request) :
    (crowd.turn key i).requests[i]? = some (request.turn key crowd.cache).1 := by
  have hlt : i < crowd.requests.length := (List.getElem?_eq_some_iff.mp h).1
  rw [turn_eq h, List.getElem?_set_self hlt]

/-- Every other request. -/
theorem requests_turn_of_ne (key : Fingerprint → κ) (hne : j ≠ i) :
    (crowd.turn key j).requests[i]? = crowd.requests[i]? := by
  cases h : crowd.requests[j]? with
  | none => rw [turn_of_eq_none h]
  | some request => rw [turn_eq h, List.getElem?_set_ne hne]

/-- The cache is sound, and every answer is right. -/
structure Coherent (key : Fingerprint → κ) (crowd : Crowd κ) : Prop where
  sound : crowd.cache.Sound key
  right : ∀ request ∈ crowd.requests, request.Right

omit [DecidableEq κ] in
theorem Coherent.start (key : Fingerprint → κ) (lists : List (List Rule)) :
    (start lists : Crowd κ).Coherent key where
  sound := .empty key
  right request hmem := by
    obtain ⟨rules, -, rfl⟩ := List.mem_map.mp hmem
    rintro _ ⟨⟩

/-- One turn preserves this. -/
theorem Coherent.turn (h : crowd.Coherent key) (i : Nat) : (crowd.turn key i).Coherent key := by
  cases hi : crowd.requests[i]? with
  | none =>
    rw [turn_of_eq_none hi]
    exact h
  | some request =>
    rw [turn_eq hi]
    refine ⟨Request.sound_turn h.sound request, fun other hother => ?_⟩
    rcases List.mem_or_eq_of_mem_set hother with hold | rfl
    · exact h.right other hold
    · exact (h.right request (List.mem_of_getElem? hi)).turn h.sound

/-- So does every schedule. -/
theorem Coherent.run (h : crowd.Coherent key) (schedule : List Nat) :
    (crowd.run key schedule).Coherent key := by
  induction schedule generalizing crowd with
  | nil => exact h
  | cons i schedule ih => exact ih (h.turn i)

/-- A request keeps its rules, and each time it is its turn it comes closer to
its end. -/
theorem exists_request_run (key : Fingerprint → κ) (h : crowd.requests[i]? = some request)
    (schedule : List Nat) :
    ∃ after, (crowd.run key schedule).requests[i]? = some after ∧ after.rules = request.rules ∧
      after.stage.turnsLeft ≤ request.stage.turnsLeft - schedule.count i := by
  induction schedule generalizing crowd request with
  | nil => exact ⟨request, h, rfl, Nat.le_refl _⟩
  | cons j schedule ih =>
    by_cases hj : j = i
    · subst hj
      obtain ⟨after, hafter, hrules, hleft⟩ := ih (requests_turn_self key h)
      have hturn := Request.turnsLeft_turn key request crowd.cache
      refine ⟨after, hafter, hrules.trans (Request.turn_rules ..), ?_⟩
      rw [List.count_cons_self]
      omega
    · obtain ⟨after, hafter, hrules, hleft⟩ := ih ((requests_turn_of_ne key hj).trans h)
      refine ⟨after, hafter, hrules, ?_⟩
      rwa [List.count_cons_of_ne hj]

omit [DecidableEq κ] in
theorem answer?_eq_some_iff {answer : Except Fault SharedRules} :
    crowd.answer? i = some answer ↔
      ∃ rules, crowd.requests[i]? = some ⟨rules, .answered answer⟩ := by
  rw [answer?]
  cases h : crowd.requests[i]? with
  | none => simp
  | some request =>
    obtain ⟨rules, stage⟩ := request
    cases stage with
    | waiting => simp
    | missed => simp
    | answered found => simp

/-- Turns in two parts. -/
theorem run_append (key : Fingerprint → κ) (crowd : Crowd κ) (before after : List Nat) :
    crowd.run key (before ++ after) = (crowd.run key before).run key after :=
  List.foldl_append

/-- Two turns are enough for an answer. -/
theorem exists_answer?_run (h : crowd.requests[i]? = some request) {schedule : List Nat}
    (hcount : 2 ≤ schedule.count i) :
    ∃ answer, (crowd.run key schedule).answer? i = some answer := by
  obtain ⟨⟨rules, stage⟩, hafter, -, hleft⟩ := exists_request_run key h schedule
  have hdone : stage.turnsLeft = 0 := by
    have htwo := request.stage.turnsLeft_le_two
    simp only at hleft
    omega
  cases stage with
  | waiting => cases hdone
  | missed => cases hdone
  | answered answer => exact ⟨answer, answer?_eq_some_iff.mpr ⟨rules, hafter⟩⟩

/-- Every answer is that of a compilation. -/
theorem Coherent.answer?_run (hcoherent : crowd.Coherent key)
    (h : crowd.requests[i]? = some request) {schedule : List Nat}
    {answer : Except Fault SharedRules}
    (hanswer : (crowd.run key schedule).answer? i = some answer) :
    answer.map SharedRules.rules = Rule.compile request.rules := by
  obtain ⟨rules, hknown⟩ := answer?_eq_some_iff.mp hanswer
  obtain ⟨after, hafter, hrules, -⟩ := exists_request_run key h schedule
  obtain rfl : ⟨rules, .answered answer⟩ = after := Option.some.inj (hknown.symm.trans hafter)
  rw [(hcoherent.run schedule).right _ (List.mem_of_getElem? hknown) answer rfl, ← hrules]

/-- The turns of a request that fails in the end leave the cache alone. -/
theorem Coherent.turn_cache_of_error (hcoherent : crowd.Coherent key) {after : List Nat}
    {fault : Fault} (hanswer : (crowd.run key (i :: after)).answer? i = some (.error fault)) :
    (crowd.turn key i).cache = crowd.cache := by
  cases h : crowd.requests[i]? with
  | none => rw [turn_of_eq_none h]
  | some request =>
    have hcompile : Rule.compile request.rules = .error fault :=
      (hcoherent.answer?_run h hanswer).symm
    rw [turn_eq h]
    exact Request.turn_cache_of_error hcompile

/-- A request that is alone gets what the cache gives at once. -/
theorem run_alone (key : Fingerprint → κ) (cache : Cache κ) (rules : List Rule) :
    run key ⟨cache, [⟨rules, .waiting⟩]⟩ [0, 0] =
      ⟨(cache.getOrCompile key rules).2,
        [⟨rules, .answered (cache.getOrCompile key rules).1⟩]⟩ := by
  rw [getOrCompile]
  cases hhit : cache.hit? (key (Rule.fingerprint rules)) rules with
  | some shared => simp [run, turn, Request.turn, hhit]
  | none => simp [run, turn, Request.turn, hhit]

omit [DecidableEq κ] in
theorem requests_start {lists : List (List Rule)} {rules : List Rule} (h : lists[i]? = some rules) :
    (start lists : Crowd κ).requests[i]? = some ⟨rules, .waiting⟩ := by
  rw [start, List.getElem?_map, h]
  rfl

/-! ### The main result -/

/-- **The cache shows in no answer.** Whatever the key makes of fingerprints,
and in whatever order the requests take their turns: what is kept under a key
has this key and is what its rules compile to; whoever had two turns is
answered, and every answer is what the rules of the request compile to, or the
failure to compile them; and a request that fails has left the cache alone at
each of its turns. By itself a request is the usual use of the cache. And the
part of the rules that keys are made of is all that compilation depends on. -/
theorem run_transparent (key : Fingerprint → κ) (lists : List (List Rule)) (schedule : List Nat) :
    let final := run key (start lists) schedule
    (∀ k rules shared, final.cache.lookup? k = some (rules, shared) →
      key (Rule.fingerprint rules) = k ∧ Rule.compile rules = .ok shared.rules) ∧
    (∀ i rules, lists[i]? = some rules →
      (2 ≤ schedule.count i → ∃ answer, final.answer? i = some answer) ∧
      ∀ answer, final.answer? i = some answer →
        answer.map SharedRules.rules = Rule.compile rules) ∧
    (∀ before i after fault, schedule = before ++ i :: after →
      final.answer? i = some (.error fault) →
      (run key (start lists) (before ++ [i])).cache = (run key (start lists) before).cache) ∧
    (∀ (cache : Cache κ) rules, run key ⟨cache, [⟨rules, .waiting⟩]⟩ [0, 0] =
      ⟨(cache.getOrCompile key rules).2,
        [⟨rules, .answered (cache.getOrCompile key rules).1⟩]⟩) ∧
    ∀ first second, Rule.fingerprint first = Rule.fingerprint second →
      Rule.compile first = Rule.compile second := by
  have hstart : (start lists).Coherent key := .start key lists
  refine ⟨?_, ?_, ?_, run_alone key, fun _ _ => Rule.compile_eq_of_fingerprint_eq⟩
  · intro k rules shared hlookup
    have hmem := mem_of_lookup?_eq_some hlookup
    have hsound := (hstart.run schedule).sound
    exact ⟨hsound.key_eq k rules shared hmem, hsound.compile_eq k rules shared hmem⟩
  · intro i rules hi
    have hrequest : (start lists : Crowd κ).requests[i]? = some ⟨rules, .waiting⟩ :=
      requests_start hi
    exact ⟨exists_answer?_run hrequest, fun answer => hstart.answer?_run hrequest⟩
  · rintro before i after fault rfl hanswer
    rw [run_append] at hanswer ⊢
    exact (hstart.run before).turn_cache_of_error hanswer

/-- All keys collide here. The second request begins and ends between the two
turns of the first, which then replaces its entry. -/
theorem run_transparent_collision :
    let first := [Rule.ofPattern "a" "/a/\x7bx\x7d" "XXX"]
    let second := [Rule.ofPattern "b" "/b/\x7bx\x7d" "XXX"]
    let final := run (fun _ => ()) (start [first, second]) [0, 1, 1, 0]
    2 ≤ [0, 1, 1, 0].count 1 ∧
      (∃ answer, final.answer? 1 = some answer ∧
        answer.map SharedRules.rules = Rule.compile second) ∧
      ∃ shared, final.cache.lookup? () = some (first, shared) ∧
        Rule.compile first = .ok shared.rules := by
  intro first second final
  obtain ⟨hentries, hanswers, -⟩ := run_transparent (fun _ => ()) [first, second] [0, 1, 1, 0]
  obtain ⟨hdone, hright⟩ := hanswers 1 second rfl
  obtain ⟨answer, hanswer⟩ := hdone (by decide)
  have hlookup : final.cache.lookup? () =
      some (first, ⟨1, first.filterMap Rule.compiled?⟩) := by rfl
  exact ⟨by decide, ⟨answer, hanswer, hright answer hanswer⟩,
    _, hlookup, (hentries () _ _ hlookup).2⟩

end Crowd

end PathVeil.Cache
