import PathVeil.Proofs.Pattern.Secrecy

/-!
# PathVeil.Proofs.Pattern.Placeholders

What a match changes: the segments at placeholders, and nothing else. The filter
puts its output together from a text that was made without the path, and from
the end of the path. This module says what that amounts to.

* If no placeholder takes the rest of the path, the output is the path itself with
  the replacement at the placeholders (`Segment.redacted`).
* Otherwise, up to the first placeholder that takes the rest, the path has the
  segments of the expression, and the output is the expression with the
  replacement at its placeholders (`Segment.replaced`).

## Proof shape

`Segment.Met` is the course of a match, with one constructor for each way in which
a wanted segment is dealt with. By induction on it a match has either gone through
all wanted segments (`Segment.GoneThrough`) or stopped at one (`Segment.Stopped`).
-/

namespace PathVeil

namespace Segment

variable {want segment replacement : List Char} {wanted found : List (List Char)} {rest : Path}
  {i : Nat}

/-! ### Placeholders and what they take -/

instance (wanted : List (List Char)) : DecidablePred (IsPlaceholderAt wanted) := fun i =>
  decidable_of_iff (wanted[i]?.any isPlaceholder = true) (Option.any_eq_true ..)

/-- Whether the segment of that number is a placeholder and takes all the rest of
the path: nothing is wanted behind it, or nothing is found there. -/
def TakesRest (wanted found : List (List Char)) (i : Nat) : Prop :=
  IsPlaceholderAt wanted i ∧ (i + 1 = wanted.length ∨ i + 1 = found.length)

/-- The wanted segments with the replacement at the placeholders. -/
def replaced (replacement : List Char) (wanted : List (List Char)) : List (List Char) :=
  wanted.map fun want => if isPlaceholder want then replacement else want

/-- The segments of a path with the replacement at the placeholders of an expression. -/
def redacted (replacement : List Char) (wanted found : List (List Char)) : List (List Char) :=
  found.mapIdx fun i segment => if IsPlaceholderAt wanted i then replacement else segment

theorem takesRest_zero :
    TakesRest (want :: wanted) (segment :: found) 0 ↔
      isPlaceholder want = true ∧ (wanted = [] ∨ found = []) := by
  have hend : (0 + 1 = wanted.length + 1 ∨ 0 + 1 = found.length + 1) ↔
      (wanted = [] ∨ found = []) := by
    rw [← List.length_eq_zero_iff, ← List.length_eq_zero_iff]
    omega
  rw [TakesRest, isPlaceholderAt_zero, List.length_cons, List.length_cons, hend]

theorem takesRest_succ :
    TakesRest (want :: wanted) (segment :: found) (i + 1) ↔ TakesRest wanted found i := by
  rw [TakesRest, TakesRest, isPlaceholderAt_succ]
  simp

theorem redacted_nil_left (replacement : List Char) (found : List (List Char)) :
    redacted replacement [] found = found := by
  simp [redacted, IsPlaceholderAt, List.mapIdx_eq_iff]

theorem redacted_cons (replacement want segment : List Char) (wanted found : List (List Char)) :
    redacted replacement (want :: wanted) (segment :: found) =
      (if isPlaceholder want then replacement else segment) ::
        redacted replacement wanted found := by
  simp only [redacted, List.mapIdx_cons, isPlaceholderAt_zero, isPlaceholderAt_succ]

/-! ### The course of a match -/

/-- The wanted segments have been met along the segments that were found, and this
is left of the path. -/
inductive Met : (wanted found : List (List Char)) → (rest : Path) → Prop
  /-- Nothing is wanted: all of the path is left. -/
  | nothing (found : List (List Char)) : Met [] found (join found)
  /-- A placeholder takes the rest of the path. -/
  | swallowed {want segment : List Char} {wanted found : List (List Char)}
    (hplace : isPlaceholder want = true) (hend : wanted = [] ∨ found = []) :
    Met (want :: wanted) (segment :: found) []
  /-- The last wanted segment begins the segment that it meets. -/
  | begun {want : List Char} (tail : List Char) (found : List (List Char))
    (hplace : isPlaceholder want = false) : Met [want] ((want ++ tail) :: found) (join (tail :: found))
  /-- A wanted segment is met, and there are more of both. -/
  | passed {want segment : List Char} {wanted found : List (List Char)} {rest : Path}
    (hhead : isPlaceholder want = true ∨ segment = want) (hwanted : wanted ≠ [])
    (hfound : found ≠ []) (h : Met wanted found rest) : Met (want :: wanted) (segment :: found) rest

theorem met_of_leftover? (h : leftover? wanted found = some rest) : Met wanted found rest := by
  induction wanted generalizing found with
  | nil =>
    rw [leftover?_nil, Option.some.injEq] at h
    exact h ▸ .nothing found
  | cons want wanted ih =>
    cases found with
    | nil => cases h
    | cons segment found =>
      rw [leftover?] at h
      cases hplace : isPlaceholder want with
      | true =>
        rw [if_pos hplace] at h
        split at h
        case isTrue hend =>
          rw [Option.some.injEq] at h
          exact h ▸ .swallowed hplace (by simpa using hend)
        case isFalse hmore =>
          rw [Bool.or_eq_true, not_or, List.isEmpty_iff, List.isEmpty_iff] at hmore
          exact .passed (.inl hplace) hmore.1 hmore.2 (ih h)
      | false =>
        rw [if_neg (by simp [hplace])] at h
        split at h
        case isTrue hlast =>
          obtain ⟨tail, htail, rfl⟩ := Option.map_eq_some_iff.mp h
          rw [Cursor.isPrefixOf?_eq_some_iff] at htail
          rw [List.isEmpty_iff] at hlast
          subst hlast htail
          exact .begun tail found hplace
        case isFalse hmore =>
          split at h
          case isTrue hmeet =>
            exact .passed (.inr hmeet.1) (by simpa using hmore) hmeet.2 (ih h)
          case isFalse => cases h

/-! ### Where it ends -/

/-- The match has gone through all wanted segments: no placeholder took the rest of
the path, and what was not left is the path itself, redacted. -/
structure GoneThrough (wanted found : List (List Char)) (rest : Path) : Prop where
  not_takesRest : ∀ i, ¬ TakesRest wanted found i
  length_le : wanted.length ≤ found.length
  join_eq : ∀ replacement,
    join (replaced replacement wanted) ++ rest = join (redacted replacement wanted found)

/-- The match has stopped at the first placeholder that takes the rest of the path,
after it had met all the segments in front of it. -/
structure Stopped (wanted found : List (List Char)) (rest : Path) (i : Nat) : Prop where
  takesRest : TakesRest wanted found i
  first : ∀ j < i, ¬ TakesRest wanted found j
  agree : ∀ j < i, ¬ IsPlaceholderAt wanted j → found[j]? = wanted[j]?
  rest_eq : rest = []

/-- A segment that is met in front of others takes no rest. -/
theorem not_takesRest_zero (hwanted : wanted ≠ []) (hfound : found ≠ []) :
    ¬ TakesRest (want :: wanted) (segment :: found) 0 := by
  intro h
  rcases (takesRest_zero.mp h).2 with hnil | hnil
  · exact hwanted hnil
  · exact hfound hnil

theorem GoneThrough.passed (hhead : isPlaceholder want = true ∨ segment = want)
    (hwanted : wanted ≠ []) (hfound : found ≠ []) (h : GoneThrough wanted found rest) :
    GoneThrough (want :: wanted) (segment :: found) rest where
  not_takesRest i := by
    cases i with
    | zero => exact not_takesRest_zero hwanted hfound
    | succ i => exact fun hi => h.not_takesRest i (takesRest_succ.mp hi)
  length_le := Nat.succ_le_succ h.length_le
  join_eq replacement := by
    have hreplaced : replaced replacement wanted ≠ [] := by simpa [replaced] using hwanted
    have hredacted : redacted replacement wanted found ≠ [] := by simpa [redacted] using hfound
    have hsame : (if isPlaceholder want then replacement else want) =
        if isPlaceholder want then replacement else segment := by
      rcases hhead with hplace | heq
      · rw [if_pos hplace, if_pos hplace]
      · rw [heq]
    rw [redacted_cons, replaced, List.map_cons, ← replaced, join_cons _ hreplaced,
      join_cons _ hredacted, List.append_assoc, List.cons_append, h.join_eq, hsame]

theorem Stopped.passed (hhead : isPlaceholder want = true ∨ segment = want)
    (hwanted : wanted ≠ []) (hfound : found ≠ []) (h : Stopped wanted found rest i) :
    Stopped (want :: wanted) (segment :: found) rest (i + 1) where
  takesRest := takesRest_succ.mpr h.takesRest
  first j hj := by
    cases j with
    | zero => exact not_takesRest_zero hwanted hfound
    | succ j => exact fun hi => h.first j (Nat.lt_of_succ_lt_succ hj) (takesRest_succ.mp hi)
  agree j hj hplace := by
    cases j with
    | zero =>
      rw [isPlaceholderAt_zero] at hplace
      exact congrArg some (hhead.resolve_left hplace)
    | succ j =>
      exact h.agree j (Nat.lt_of_succ_lt_succ hj) (mt isPlaceholderAt_succ.mpr hplace)
  rest_eq := h.rest_eq

/-- **A match goes through, or stops at a placeholder.** -/
theorem Met.goneThrough_or_stopped (h : Met wanted found rest) :
    GoneThrough wanted found rest ∨ ∃ i, Stopped wanted found rest i := by
  induction h with
  | nothing found =>
    refine Or.inl ⟨fun i hi => ?_, Nat.zero_le _, fun replacement => ?_⟩
    · obtain ⟨⟨want, hwant, -⟩, -⟩ := hi
      simp at hwant
    · rw [redacted_nil_left]
      rfl
  | swallowed hplace hend =>
    exact Or.inr ⟨0, takesRest_zero.mpr ⟨hplace, hend⟩, by simp, by simp, rfl⟩
  | @begun want tail found hplace =>
    refine Or.inl ⟨fun i hi => ?_, by simp, fun replacement => ?_⟩
    · cases i with
      | zero => simp [(takesRest_zero.mp hi).1] at hplace
      | succ i =>
        obtain ⟨⟨want', hwant', -⟩, -⟩ := hi
        simp at hwant'
    · rw [redacted_cons, redacted_nil_left, if_neg (by simp [hplace]), join_append_cons]
      simp [replaced, hplace]
  | passed hhead hwanted hfound _ ih =>
    rcases ih with hgone | ⟨i, hstopped⟩
    · exact Or.inl (hgone.passed hhead hwanted hfound)
    · exact Or.inr ⟨i + 1, hstopped.passed hhead hwanted hfound⟩

/-- A segment, the gap behind it and what follows. -/
theorem join_cons_eq_gap (segment : List Char) (others : List (List Char)) :
    join (segment :: others) = segment ++ (Token.gap others ++ join others) := by
  cases others with
  | nil => simp [Token.gap]
  | cons next others => rfl

end Segment

namespace Token

theorem fill_prepend (replacement text : List Char) (tokens : List Token) :
    fill replacement (prepend text tokens) = text ++ fill replacement tokens := by
  cases text with
  | nil => rfl
  | cons c text => rfl

/-- The text of the tokens, after the text that is still open, is that of the
segments. -/
theorem fill_ofSegments (replacement text : List Char) (segments : List (List Char)) :
    fill replacement (ofSegments text segments) =
      text ++ Segment.join (Segment.replaced replacement segments) := by
  induction segments generalizing text with
  | nil => rw [ofSegments, fill_prepend]; rfl
  | cons segment others ih =>
    have hgap : gap (Segment.replaced replacement others) = gap others := by
      simp [gap, Segment.replaced]
    rw [ofSegments, Segment.replaced, List.map_cons, ← Segment.replaced,
      Segment.join_cons_eq_gap, hgap]
    cases hplace : Segment.isPlaceholder segment with
    | true => rw [if_pos rfl, if_pos rfl, fill_prepend, fill_cons, ih]; rfl
    | false =>
      rw [if_neg Bool.false_ne_true, if_neg Bool.false_ne_true, ih]
      simp only [List.append_assoc]

end Token

namespace Pattern

/-- The substitute, segment by segment. -/
theorem substitute_eq_join (pattern : Pattern) :
    pattern.substitute = Segment.join
      (Segment.replaced pattern.replacement (Segment.significant pattern.expression)) := by
  rw [pattern.substitute_eq, pattern.tokens_eq, Token.ofExpression, Token.fill_ofSegments]
  rfl

/-- **A match changes placeholder segments and nothing else.** Let a path match.

* If no placeholder takes the rest of the path, the path has as many segments as the
  expression or more, and the output is the path with the replacement at the
  placeholders.
* Otherwise let `i` be the first placeholder that takes the rest. In front of it the
  path has the segments of the expression, save at placeholders, and the output is the
  expression with the replacement at its placeholders. -/
theorem filter_changes_placeholders (replacement expression : List Char) (path : Path)
    (hmatch : (compile replacement expression).find path ≠ .noMatch) :
    let wanted := Segment.significant expression
    let found := Segment.split path
    ((∀ i, ¬ Segment.TakesRest wanted found i) ∧ wanted.length ≤ found.length ∧
      (compile replacement expression).filter path =
        Segment.join (Segment.redacted replacement wanted found)) ∨
    ∃ i, Segment.TakesRest wanted found i ∧ (∀ j < i, ¬ Segment.TakesRest wanted found j) ∧
      (∀ j < i, ¬ Segment.IsPlaceholderAt wanted j → found[j]? = wanted[j]?) ∧
      (compile replacement expression).filter path =
        Segment.join (Segment.replaced replacement wanted) := by
  intro wanted found
  have hremainder := remainder?_eq_leftover? (compile replacement expression) path
  rw [find_eq_ofRemainder, hremainder] at hmatch
  cases hrest : Segment.leftover? wanted found with
  | none => exact absurd (by rw [compile_expression, hrest]; rfl) hmatch
  | some rest =>
    have hfilter : (compile replacement expression).filter path =
        Segment.join (Segment.replaced replacement wanted) ++ rest := by
      rw [filter_eq_of_remainder, hremainder, compile_expression, hrest, substitute_eq_join]
      rfl
    rcases (Segment.met_of_leftover? hrest).goneThrough_or_stopped with hgone | ⟨i, hstopped⟩
    · refine Or.inl ⟨hgone.not_takesRest, hgone.length_le, ?_⟩
      rw [hfilter, hgone.join_eq]
    · refine Or.inr ⟨i, hstopped.takesRest, hstopped.first, hstopped.agree, ?_⟩
      rw [hfilter, hstopped.rest_eq, List.append_nil]

/-- A match that goes through and ends within a segment, and one that stops at a
placeholder, in which the path has no segment for the last of the expression. -/
theorem filter_changes_placeholders_orders :
    ((compile ['X'] "/o/{id}/ite".toList).find "/o/größe/items/1".toList ≠ .noMatch ∧
      (compile ['X'] "/o/{id}/ite".toList).filter "/o/größe/items/1".toList =
        Segment.join [[], ['o'], ['X'], "items".toList, ['1']]) ∧
    (compile ['X'] "/o/{id}/ite".toList).find "/o/größe".toList ≠ .noMatch ∧
      (compile ['X'] "/o/{id}/ite".toList).filter "/o/größe".toList =
        Segment.join [[], ['o'], ['X'], "ite".toList] := by
  have hthrough : (compile ['X'] "/o/{id}/ite".toList).find "/o/größe/items/1".toList ≠
      .noMatch := by decide
  have hstops : (compile ['X'] "/o/{id}/ite".toList).find "/o/größe".toList ≠ .noMatch := by
    decide
  refine ⟨⟨hthrough, ?_⟩, hstops, ?_⟩
  · rcases filter_changes_placeholders _ _ _ hthrough with ⟨-, -, hfilter⟩ | ⟨i, hrest, -⟩
    · exact hfilter.trans (by decide)
    · have hlength : (Segment.significant "/o/{id}/ite".toList).length = 4 ∧
          (Segment.split "/o/größe/items/1".toList).length = 5 := by decide
      obtain ⟨hplace, hlast⟩ := hrest
      obtain rfl | rfl : i = 3 ∨ i = 4 := by omega
      · exact absurd hplace (by decide)
      · exact absurd hplace (by decide)
  · rcases filter_changes_placeholders _ _ _ hstops with ⟨hnone, -⟩ | ⟨i, -, -, -, hfilter⟩
    · exact absurd ⟨by decide, by decide⟩ (hnone 2)
    · exact hfilter.trans (by decide)

end Pattern

end PathVeil
