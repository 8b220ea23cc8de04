import PathVeil.Filter
import PathVeil.Proofs.Engine.Run

/-!
# PathVeil.Proofs.Filter.Agreement

There are many ways to run the same patterns: alone, as the rules of an engine,
in chains of filters nested in any manner, with or without a record, through an
engine that is made for one path or for many. All of them give the same path.

## Proof shape

`Filter.run_eq_foldl` takes a filter apart into its patterns, by induction on
the filter; an engine is a leaf of this induction, where `Engine.filter_eq_foldl`
does the rest. Filtering with a configuration is compared with the engine of the
configuration, if there is one (`filterPath_of_ok`, `filterPaths_of_ok`).
-/

namespace PathVeil

namespace Filter

/-! ### Filters and their patterns -/

/-- The second of two filters goes on with the path that the first has left,
whether that was lent or built. -/
theorem run_andThen (first second : Filter) (path : Path) :
    (andThen first second).run path = second.run (first.run path) := by
  rw [run, run, run, apply]
  cases first.apply path with
  | lent middle => rfl
  | built middle => rfl

/-- A filter applies its patterns from left to right. -/
theorem run_eq_foldl (filter : Filter) (path : Path) :
    filter.run path = filter.patterns.foldl (fun path pattern => pattern.filter path) path := by
  induction filter generalizing path with
  | ofPattern pattern => rfl
  | ofEngine engine => exact engine.filter_eq_foldl path
  | andThen first second ihFirst ihSecond =>
    rw [run_andThen, ihSecond, ihFirst, patterns, List.foldl_append]
  | shared inner ih => exact ih path

/-- Filters with the same patterns in the same order do the same. -/
theorem run_eq_of_patterns_eq {first second : Filter} (h : first.patterns = second.patterns) :
    first.run = second.run := by
  funext path
  rw [run_eq_foldl, run_eq_foldl, h]

end Filter

/-! ### One-shot filtering -/

section OneShot

variable {config : List Rule}

theorem filterPath_of_ok {engine : Engine} (h : Engine.ofRules config = .ok engine) (path : Path) :
    filterPath config path = .ok (engine.filter path) := by
  rw [filterPath, h]
  rfl

theorem filterPaths_of_ok {engine : Engine} (h : Engine.ofRules config = .ok engine)
    (paths : List Path) : filterPaths config paths = .ok (paths.map engine.filter) := by
  rw [filterPaths, h]
  rfl

theorem filterPath_of_error {failure : Failure} (h : Engine.ofRules config = .error failure)
    (path : Path) : filterPath config path = .error failure := by
  rw [filterPath, h]
  rfl

theorem filterPaths_of_error {failure : Failure} (h : Engine.ofRules config = .error failure)
    (paths : List Path) : filterPaths config paths = .error failure := by
  rw [filterPaths, h]
  rfl

/-- Where there is an engine, many paths are filtered as each of them is. -/
theorem filterPaths_eq_mapM {engine : Engine} (h : Engine.ofRules config = .ok engine)
    (paths : List Path) : filterPaths config paths = paths.mapM (filterPath config) := by
  have hpath : filterPath config = fun path => pure (engine.filter path) :=
    funext (filterPath_of_ok h)
  rw [filterPaths_of_ok h, hpath, List.mapM_pure]
  rfl

end OneShot

/-! ### The main result -/

/-- **All ways of filtering agree.** A filter is its patterns from left to
right, so that neither the nesting of a chain nor the distribution of the rules
over engines matters; sanitizing leaves the same path as filtering; and a
configuration filters one path or many as its engine does, or fails as the
making of the engine does, whatever there is to filter. -/
theorem Filter.run_agreement :
    (∀ (filter : Filter) (path : Path), filter.run path =
      filter.patterns.foldl (fun path pattern => pattern.filter path) path) ∧
    (∀ first second : Filter, first.patterns = second.patterns → first.run = second.run) ∧
    (∀ (engine : Engine) (path : Path) (sourceId : String),
      (engine.sanitize path sourceId).1 = engine.filter path) ∧
    ∀ config : List Rule,
      (∃ engine, Engine.ofRules config = .ok engine ∧
        (∀ path, filterPath config path = .ok (engine.filter path)) ∧
        ∀ paths, filterPaths config paths = paths.mapM (filterPath config) ∧
          filterPaths config paths = .ok (paths.map engine.filter)) ∨
      (∃ failure, Engine.ofRules config = .error failure ∧
        (∀ path, filterPath config path = .error failure) ∧
        ∀ paths, filterPaths config paths = .error failure) := by
  refine ⟨Filter.run_eq_foldl, fun _ _ => Filter.run_eq_of_patterns_eq, ?_, ?_⟩
  · intro engine path sourceId
    rw [Engine.sanitize_eq]
  · intro config
    cases h : Engine.ofRules config with
    | ok engine =>
      exact .inl ⟨engine, rfl, filterPath_of_ok h, fun paths =>
        ⟨filterPaths_eq_mapM h paths, filterPaths_of_ok h paths⟩⟩
    | error failure =>
      exact .inr ⟨failure, rfl, filterPath_of_error h, filterPaths_of_error h⟩

/-- Two rules of one engine, and the same patterns in a chain. -/
theorem Filter.run_agreement_chain :
    let orders := Pattern.compile "XXX".toList "/orders/{id}".toList
    let users := Pattern.compile "XXX".toList "/users/{name}/mail".toList
    let engine : Filter := .ofEngine ⟨[⟨"orders", orders⟩, ⟨"users", users⟩], []⟩
    let chain : Filter := .andThen (.ofPattern orders) (.shared (.ofPattern users))
    engine.patterns = chain.patterns ∧ engine.run = chain.run :=
  ⟨rfl, Filter.run_agreement.2.1 _ _ rfl⟩

end PathVeil
