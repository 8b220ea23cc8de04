import PathVeil.Proofs.Pattern.Segmentwise
import PathVeil.Redaction

/-!
# PathVeil.Proofs.Pattern.Secrecy

The segments that stand at placeholders do not influence what a pattern makes of
a path. Two paths are compared in two runs of the same pattern. They are taken to
be indistinguishable in one of two ways:

* `SameApart` — they have equally many segments, and differ at placeholders only;
* `SameBeforeTail` — the expression ends in a placeholder, which swallows all
  that follows; they are long enough and differ, in front of it, at placeholders only.

In either case the two runs have the same kind of outcome and, where there is a
match, the same result (`Pattern.filter_indistinguishable`).

The secrets in the two paths may have different sizes, so that offsets do not
agree in the two runs. The proof therefore compares what the runs leave of the
paths (`Segment.leftover?`), where no offsets occur: both leave the same text.
-/

namespace PathVeil

namespace Segment

/-- Whether the segment of that number is a placeholder. -/
def IsPlaceholderAt (wanted : List (List Char)) (i : Nat) : Prop :=
  ∃ want, wanted[i]? = some want ∧ isPlaceholder want = true

/-- Two paths of equally many segments that differ at placeholders only. -/
structure SameApart (wanted first second : List (List Char)) : Prop where
  length_eq : first.length = second.length
  agree : ∀ i, ¬ IsPlaceholderAt wanted i → first[i]? = second[i]?

/-- Two paths that differ, in front of a placeholder that ends the expression, at
placeholders only. From there on they may differ in every way. -/
structure SameBeforeTail (wanted first second : List (List Char)) : Prop where
  tail : ∃ want, wanted.getLast? = some want ∧ isPlaceholder want = true
  length_first : wanted.length ≤ first.length
  length_second : wanted.length ≤ second.length
  agree : ∀ i, i + 1 < wanted.length → ¬ IsPlaceholderAt wanted i → first[i]? = second[i]?

/-! ### One segment less -/

theorem isPlaceholderAt_zero {want : List Char} {wanted : List (List Char)} :
    IsPlaceholderAt (want :: wanted) 0 ↔ isPlaceholder want = true := by
  simp [IsPlaceholderAt]

theorem isPlaceholderAt_succ {want : List Char} {wanted : List (List Char)} {i : Nat} :
    IsPlaceholderAt (want :: wanted) (i + 1) ↔ IsPlaceholderAt wanted i := by
  simp [IsPlaceholderAt]

namespace SameApart

variable {want : List Char} {wanted : List (List Char)} {s t : List Char}
  {first second : List (List Char)}

theorem behind (h : SameApart (want :: wanted) (s :: first) (t :: second)) :
    SameApart wanted first second where
  length_eq := Nat.succ.inj h.length_eq
  agree i hi := h.agree (i + 1) (mt isPlaceholderAt_succ.mp hi)

/-- At a literal segment the two paths agree. -/
theorem head_eq (h : SameApart (want :: wanted) (s :: first) (t :: second))
    (hplace : isPlaceholder want = false) : s = t := by
  have hzero := h.agree 0 (by simp [isPlaceholderAt_zero, hplace])
  exact Option.some.inj hzero

/-- Behind the expression the two paths agree altogether. -/
theorem eq_of_nil (h : SameApart [] first second) : first = second :=
  List.ext_getElem? fun i => h.agree i (by simp [IsPlaceholderAt])

end SameApart

namespace SameBeforeTail

variable {want next : List Char} {wanted : List (List Char)} {s t : List Char}
  {first second : List (List Char)}

theorem behind (h : SameBeforeTail (want :: next :: wanted) (s :: first) (t :: second)) :
    SameBeforeTail (next :: wanted) first second where
  tail := by simpa using h.tail
  length_first := Nat.le_of_succ_le_succ h.length_first
  length_second := Nat.le_of_succ_le_succ h.length_second
  agree i hi hplace :=
    h.agree (i + 1) (Nat.succ_lt_succ hi) (mt isPlaceholderAt_succ.mp hplace)

theorem head_eq (h : SameBeforeTail (want :: next :: wanted) (s :: first) (t :: second))
    (hplace : isPlaceholder want = false) : s = t := by
  have hzero := h.agree 0 (by simp) (by simp [isPlaceholderAt_zero, hplace])
  exact Option.some.inj hzero

theorem first_ne_nil (h : SameBeforeTail (want :: wanted) first second) : first ≠ [] :=
  List.ne_nil_of_length_pos (Nat.lt_of_lt_of_le (Nat.succ_pos _) h.length_first)

theorem second_ne_nil (h : SameBeforeTail (want :: wanted) first second) : second ≠ [] :=
  List.ne_nil_of_length_pos (Nat.lt_of_lt_of_le (Nat.succ_pos _) h.length_second)

end SameBeforeTail

/-! ### The same leftover -/

/-- Paths that differ at placeholders only leave the same: a placeholder never
looks at what it takes, and all else is equal. -/
theorem SameApart.leftover?_eq {wanted first second : List (List Char)}
    (h : SameApart wanted first second) : leftover? wanted first = leftover? wanted second := by
  induction wanted generalizing first second with
  | nil => rw [h.eq_of_nil]
  | cons want wanted ih =>
    cases first with
    | nil =>
      rw [List.eq_nil_of_length_eq_zero h.length_eq.symm]
    | cons s first =>
      cases second with
      | nil => exact absurd h.length_eq (by simp)
      | cons t second =>
        have hnil : first = [] ↔ second = [] := by
          rw [← List.length_eq_zero_iff, ← List.length_eq_zero_iff, h.behind.length_eq]
        rw [leftover?, leftover?, ih h.behind]
        cases hplace : isPlaceholder want with
        | true =>
          have hempty : first.isEmpty = second.isEmpty := by
            rw [Bool.eq_iff_iff, List.isEmpty_iff, List.isEmpty_iff, hnil]
          rw [if_pos rfl, if_pos rfl, hempty]
        | false =>
          rw [if_neg Bool.false_ne_true, if_neg Bool.false_ne_true, h.head_eq hplace]
          cases wanted with
          | nil => rw [h.behind.eq_of_nil]
          | cons next wanted => simp only [List.isEmpty_cons, Bool.false_eq_true, if_false, Ne, hnil]

/-- A placeholder at the end leaves nothing of either path, if the match gets
that far. -/
theorem SameBeforeTail.leftover?_eq {wanted first second : List (List Char)}
    (h : SameBeforeTail wanted first second) :
    leftover? wanted first = leftover? wanted second := by
  induction wanted generalizing first second with
  | nil =>
    obtain ⟨want, hlast, -⟩ := h.tail
    cases hlast
  | cons want wanted ih =>
    obtain ⟨s, first, rfl⟩ := List.exists_cons_of_ne_nil h.first_ne_nil
    obtain ⟨t, second, rfl⟩ := List.exists_cons_of_ne_nil h.second_ne_nil
    cases wanted with
    | nil =>
      obtain ⟨last, hlast, hplace⟩ := h.tail
      rw [List.getLast?_singleton, Option.some.injEq] at hlast
      subst hlast
      simp [leftover?, hplace]
    | cons next wanted =>
      have hfirst := h.behind.first_ne_nil
      have hsecond := h.behind.second_ne_nil
      rw [leftover?, leftover?, ih h.behind]
      cases hplace : isPlaceholder want with
      | true => simp [hfirst, hsecond]
      | false => simp [h.head_eq hplace, hfirst, hsecond]

end Segment

/-- The kind of an outcome depends on the remainder, not on the size of the path. -/
theorem Outcome.extent?_ofRemainder (size : Nat) (rest? : Option Path) :
    (ofRemainder size rest?).extent? =
      rest?.map fun rest => if rest.isEmpty then .full else .leading := by
  cases rest? with
  | none => rfl
  | some rest => cases rest <;> rfl

namespace Pattern

/-- Equal remainders mean equal kinds of outcome, and equal results of a match. -/
theorem filter_eq_of_remainder?_eq {pattern : Pattern} {p q : Path}
    (h : Token.remainder? p pattern.tokens = Token.remainder? q pattern.tokens) :
    (pattern.find p).extent? = (pattern.find q).extent?
      ∧ (pattern.find p ≠ .noMatch → pattern.filter p = pattern.filter q) := by
  constructor
  · rw [find_eq_ofRemainder, find_eq_ofRemainder, Outcome.extent?_ofRemainder,
      Outcome.extent?_ofRemainder, h]
  · intro hmatch
    rw [find_eq_ofRemainder] at hmatch
    rw [filter_eq_of_remainder, filter_eq_of_remainder, ← h]
    cases hrest : Token.remainder? p pattern.tokens with
    | none => exact absurd (by rw [hrest]; rfl) hmatch
    | some rest => rfl

/-- **Placeholders keep their secret.** On two paths that differ only in what
stands at placeholders, or behind a placeholder that ends the expression, a
pattern has the same kind of outcome and, unless it does not match, the same
result. -/
theorem filter_indistinguishable (replacement expression : List Char) (p q : Path)
    (h : Segment.SameApart (Segment.significant expression) (Segment.split p) (Segment.split q)
      ∨ Segment.SameBeforeTail (Segment.significant expression) (Segment.split p)
          (Segment.split q)) :
    ((compile replacement expression).find p).extent? =
        ((compile replacement expression).find q).extent?
      ∧ ((compile replacement expression).find p ≠ .noMatch →
          (compile replacement expression).filter p =
            (compile replacement expression).filter q) := by
  apply filter_eq_of_remainder?_eq
  rw [remainder?_eq_leftover?, remainder?_eq_leftover?, compile_expression]
  rcases h with hapart | htail
  · exact hapart.leftover?_eq
  · exact htail.leftover?_eq

/-- Two secrets of different sizes at the placeholder, and two tails of different
lengths behind a placeholder at the end. -/
theorem filter_indistinguishable_orders :
    (Segment.SameApart (Segment.significant "/o/{id}/x".toList)
        (Segment.split "/o/7/x/é".toList) (Segment.split "/o/größe/x/é".toList)
      ∧ (compile ['X'] "/o/{id}/x".toList).filter "/o/7/x/é".toList =
          (compile ['X'] "/o/{id}/x".toList).filter "/o/größe/x/é".toList)
    ∧ Segment.SameBeforeTail (Segment.significant "/o/{id}".toList)
        (Segment.split "/o/7".toList) (Segment.split "/o/42/y".toList)
      ∧ (compile ['X'] "/o/{id}".toList).filter "/o/7".toList =
          (compile ['X'] "/o/{id}".toList).filter "/o/42/y".toList := by
  have hapart : Segment.SameApart (Segment.significant "/o/{id}/x".toList)
      (Segment.split "/o/7/x/é".toList) (Segment.split "/o/größe/x/é".toList) := by
    have hp : Segment.split "/o/7/x/é".toList = [[], ['o'], ['7'], ['x'], ['é']] := by decide
    have hq : Segment.split "/o/größe/x/é".toList =
        [[], ['o'], "größe".toList, ['x'], ['é']] := by decide
    rw [hp, hq]
    refine ⟨rfl, fun i hi => ?_⟩
    match i with
    | 0 | 1 | 3 | 4 => rfl
    | 2 => exact absurd ⟨"{id}".toList, by decide, by decide⟩ hi
    | i + 5 => rfl
  have htail : Segment.SameBeforeTail (Segment.significant "/o/{id}".toList)
      (Segment.split "/o/7".toList) (Segment.split "/o/42/y".toList) := by
    have hwanted : Segment.significant "/o/{id}".toList = [[], ['o'], "{id}".toList] := by decide
    rw [hwanted]
    refine ⟨⟨"{id}".toList, rfl, by decide⟩, by decide, by decide, fun i hi _ => ?_⟩
    match i with
    | 0 | 1 => decide
    | i + 2 => exact absurd hi (by simp)
  exact ⟨⟨hapart, (filter_indistinguishable _ _ _ _ (.inl hapart)).2 (by decide)⟩,
    htail, (filter_indistinguishable _ _ _ _ (.inr htail)).2 (by decide)⟩

end Pattern

end PathVeil
