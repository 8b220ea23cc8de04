import PathVeil.Proofs.Engine.Run
import PathVeil.Proofs.Pattern.Shape

/-!
# PathVeil.Proofs.Engine.Characters

Where the characters of a filtered path come from. A match puts pattern text into
a path that was never there, and the next rule finds it there; still every
character is one of the path, or stands in the expression or the replacement of
some rule (`Engine.mem_filter`).
-/

namespace PathVeil

namespace Segment

/-- Putting a replacement in place of placeholders brings in nothing else. -/
theorem mem_join_replaced {c : Char} {replacement : List Char} {segments : List (List Char)}
    (h : c ∈ join (replaced replacement segments)) : c ∈ replacement ∨ c ∈ join segments := by
  have hone (want : List Char) (hc : c ∈ if isPlaceholder want then replacement else want) :
      c ∈ replacement ∨ c ∈ want := by
    split at hc
    · exact .inl hc
    · exact .inr hc
  induction segments with
  | nil => exact .inr h
  | cons want wanted ih =>
    by_cases hwanted : wanted = []
    · subst hwanted
      exact hone want h
    · have hreplaced : replaced replacement wanted ≠ [] := by simpa [replaced] using hwanted
      rw [replaced, List.map_cons, ← replaced, join_cons _ hreplaced, List.mem_append,
        List.mem_cons] at h
      rw [join_cons _ hwanted, List.mem_append, List.mem_cons]
      rcases h with hwant | hseparator | hrest
      · exact (hone want hwant).imp_right .inl
      · exact .inr (.inr (.inl hseparator))
      · exact (ih hrest).imp_right fun hmem => .inr (.inr hmem)

end Segment

namespace Pattern

variable {pattern : Pattern} {c : Char} {path : Path}

theorem mem_substitute (h : c ∈ pattern.substitute) :
    c ∈ pattern.replacement ∨ c ∈ pattern.expression := by
  rw [substitute_eq_join] at h
  rcases Segment.mem_join_replaced h with hreplacement | hexpression
  · exact .inl hreplacement
  · rw [Segment.join_significant] at hexpression
    exact .inr ((List.rdropWhile_prefix _ _).subset hexpression)

/-- The characters that one pattern leaves. -/
theorem mem_filter (h : c ∈ pattern.filter path) :
    c ∈ path ∨ c ∈ pattern.replacement ∨ c ∈ pattern.expression := by
  rw [filter_eq_of_remainder] at h
  cases hrest : Token.remainder? path pattern.tokens with
  | none =>
    rw [hrest] at h
    exact .inl h
  | some rest =>
    rw [hrest, Option.elim_some, List.mem_append] at h
    rcases h with hsubstitute | hrestmem
    · exact .inr (mem_substitute hsubstitute)
    · exact .inl ((Token.suffix_of_remainder? hrest).subset hrestmem)

end Pattern

/-- **No character comes from nowhere.** Each character of a filtered path is one
of the path or of the text of some rule. -/
theorem Engine.mem_filter {engine : Engine} {c : Char} {path : Path}
    (h : c ∈ engine.filter path) :
    c ∈ path ∨ ∃ rule ∈ engine.rules,
      c ∈ rule.pattern.replacement ∨ c ∈ rule.pattern.expression := by
  rw [filter_eq_foldl, List.foldl_map] at h
  generalize engine.rules = rules at h ⊢
  induction rules generalizing path with
  | nil => exact .inl h
  | cons rule rules ih =>
    rcases ih h with hfiltered | ⟨other, hother, hmem⟩
    · rcases Pattern.mem_filter hfiltered with hpath | htext
      · exact .inl hpath
      · exact .inr ⟨rule, List.mem_cons_self, htext⟩
    · exact .inr ⟨other, List.mem_cons_of_mem rule hother, hmem⟩

end PathVeil
