import PathVeil.Rule.Cache

/-!
# PathVeil.Rule.Contention

Requests that use one cache at the same time. A request looks into the cache,
and if it finds nothing, it compiles and puts the result in. Each of the two is
one turn; between them the cache is free, and requests may take their turns in
any order.

A schedule is the list of the requests whose turn it is, by number. A request
that begins late is one that has no turn for a while.
-/

namespace PathVeil.Cache

variable {κ : Type} [DecidableEq κ]

/-- How far a request has come. -/
inductive Stage where
  /-- It has not looked into the cache yet. -/
  | waiting
  /-- It has looked, and found nothing that it may use. -/
  | missed
  /-- It is done. -/
  | answered (answer : Except Fault SharedRules)

/-- The most turns that are still needed. -/
def Stage.turnsLeft : Stage → Nat
  | .waiting => 2
  | .missed => 1
  | .answered _ => 0

/-- A request for the compiled form of some rules. -/
structure Request where
  rules : List Rule
  stage : Stage := .waiting

/-- One turn of a request. -/
def Request.turn (key : Fingerprint → κ) (request : Request) (cache : Cache κ) :
    Request × Cache κ :=
  match request.stage with
  | .waiting =>
    match cache.hit? (key (Rule.fingerprint request.rules)) request.rules with
    | some shared => ({ request with stage := .answered (.ok shared) }, cache)
    | none => ({ request with stage := .missed }, cache)
  | .missed =>
    let (answer, cache) := cache.compileAndInsert key request.rules
    ({ request with stage := .answered answer }, cache)
  | .answered _ => (request, cache)

/-- A cache and the requests that use it. -/
structure Crowd (κ : Type) where
  cache : Cache κ := {}
  requests : List Request

namespace Crowd

/-- Requests for these lists of rules, before the first turn. -/
def start (lists : List (List Rule)) : Crowd κ where
  requests := lists.map fun rules => { rules }

/-- The request with this number takes a turn. -/
def turn (key : Fingerprint → κ) (crowd : Crowd κ) (i : Nat) : Crowd κ :=
  match crowd.requests[i]? with
  | none => crowd
  | some request =>
    let (request, cache) := request.turn key crowd.cache
    { cache, requests := crowd.requests.set i request }

/-- Turns one after another. -/
def run (key : Fingerprint → κ) (crowd : Crowd κ) (schedule : List Nat) : Crowd κ :=
  schedule.foldl (turn key) crowd

/-- The answer to the request with this number, once there is one. -/
def answer? (crowd : Crowd κ) (i : Nat) : Option (Except Fault SharedRules) :=
  match crowd.requests[i]? with
  | some ⟨_, .answered answer⟩ => some answer
  | _ => none

end Crowd

end PathVeil.Cache
