import PathVeil.Engine

/-!
# PathVeil.Filter

Filters and their composition. A filter is a pattern, an engine, or two filters
one after the other; a filter may be shared, which changes nothing about it.
-/

namespace PathVeil

/-- Something that changes paths. -/
inductive Filter where
  | ofPattern (pattern : Pattern)
  | ofEngine (engine : Engine)
  /-- The second filter gets what the first has left. -/
  | andThen (first second : Filter)
  /-- A filter held by several users. -/
  | shared (inner : Filter)
  deriving Repr

namespace Filter

/-- What the filter hands back. What the second of two filters would lend from a
text that the first has built is built anew. -/
def apply : Filter → Path → Rendered
  | .ofPattern pattern, path => pattern.apply path
  | .ofEngine engine, path => engine.rendered path
  | .andThen first second, path =>
    match first.apply path with
    | .lent middle => second.apply middle
    | .built middle => .built (second.apply middle).path
  | .shared inner, path => inner.apply path

/-- The path after the filter. -/
def run (filter : Filter) (path : Path) : Path := (filter.apply path).path

/-- The patterns that the filter applies, in order. -/
def patterns : Filter → List Pattern
  | .ofPattern pattern => [pattern]
  | .ofEngine engine => engine.rules.map CompiledRule.pattern
  | .andThen first second => first.patterns ++ second.patterns
  | .shared inner => inner.patterns

end Filter

end PathVeil
