import PathVeil.Proofs.Pattern.Extension

/-!
# PathVeil.Proofs.Pattern.Identity

Patterns that never change a path. They are exactly those without placeholders
(`Pattern.hasPlaceholders_eq_false_iff`). Without placeholders, what a match takes from
the front of a path is what the substitute puts there. With one, there is a path that
is changed, whatever the replacement is: the tokens with some other filler in place of
the wildcards, longer than the replacement and without separator. The pattern takes all
of this path, and its substitute is shorter.

Whether there are placeholders is a question about tokens here. The last section
answers it from the segments of the expression as they stand, empty ones at the end
included (`Token.wildcard_mem_ofExpression`).
-/

namespace PathVeil

namespace Token

variable {tokens : List Token} {path rest : Path}

/-! ### The texts of tokens -/

/-- Without wildcards, a match takes the text of the tokens. -/
theorem eq_fill_append (h : .wildcard ∉ tokens) (hrest : remainder? path tokens = some rest)
    (replacement : List Char) : path = fill replacement tokens ++ rest := by
  induction tokens generalizing path with
  | nil =>
    rw [remainder?_nil, Option.some.injEq] at hrest
    exact hrest
  | cons token tokens ih =>
    rw [List.mem_cons, not_or] at h
    cases token with
    | literal text =>
      obtain ⟨next, rfl, hnext⟩ := remainder?_literal_eq_some_iff.mp hrest
      rw [fill_cons, Token.text, List.append_assoc, ← ih h.2 hnext]
    | wildcard => exact absurd rfl h.1

/-- Every wildcard adds the length of the replacement. -/
theorem length_fill (replacement : List Char) (tokens : List Token) :
    (fill replacement tokens).length =
      (fill [] tokens).length + tokens.count .wildcard * replacement.length := by
  induction tokens with
  | nil => simp
  | cons token tokens ih =>
    rw [fill_cons, fill_cons, List.length_append, List.length_append, ih]
    cases token with
    | literal text =>
      rw [List.count_cons_of_ne (by simp), Token.text, Token.text]
      omega
    | wildcard =>
      rw [List.count_cons_self, Token.text, Token.text, List.length_nil, Nat.succ_mul]
      omega

end Token

namespace Pattern

variable {pattern : Pattern}

theorem hasPlaceholders_iff : pattern.hasPlaceholders = true ↔ .wildcard ∈ pattern.tokens := by
  rw [hasPlaceholders, List.contains_iff_mem]

/-! ### Paths that are changed -/

/-- A pattern without placeholders puts back what it has taken. -/
theorem filter_of_not_hasPlaceholders (h : pattern.hasPlaceholders = false) (path : Path) :
    pattern.filter path = path := by
  have hwildcard : .wildcard ∉ pattern.tokens := by
    rw [← hasPlaceholders_iff, h]
    exact Bool.false_ne_true
  cases hrest : Token.remainder? path pattern.tokens with
  | none => rw [filter_eq_of_remainder, hrest, Option.elim_none]
  | some rest =>
    rw [filter_of_remainder hrest, pattern.substitute_eq]
    exact (Token.eq_fill_append hwildcard hrest pattern.replacement).symm

/-- A pattern with placeholders takes all of its own text with another filler. -/
theorem filter_fill {filler : List Char} (hfiller : separator ∉ filler) :
    pattern.filter (Token.fill filler pattern.tokens) = pattern.substitute := by
  have hrest := Token.remainder?_fill_append pattern.wildcardsStop (fun _ => hfiller) (fun _ => rfl)
  rw [List.append_nil] at hrest
  rw [filter_of_remainder hrest, List.append_nil]

/-- A pattern with placeholders changes some path. -/
theorem exists_filter_ne (h : pattern.hasPlaceholders = true) :
    ∃ path, pattern.filter path ≠ path := by
  let filler := List.replicate (pattern.replacement.length + 1) 'x'
  have hfiller : separator ∉ filler := by
    intro hmem
    exact absurd (List.eq_of_mem_replicate hmem) (by decide)
  refine ⟨Token.fill filler pattern.tokens, fun heq => ?_⟩
  rw [filter_fill hfiller, pattern.substitute_eq] at heq
  -- There is a wildcard, and its filler is longer than the replacement.
  have hlength := congrArg List.length heq
  have hcount : 0 < pattern.tokens.count .wildcard :=
    List.count_pos_iff.mpr (hasPlaceholders_iff.mp h)
  rw [Token.length_fill, Token.length_fill filler, List.length_replicate, Nat.mul_succ] at hlength
  omega

/-- **Patterns without placeholders are those that do nothing.** -/
theorem hasPlaceholders_eq_false_iff :
    pattern.hasPlaceholders = false ↔ ∀ path, pattern.filter path = path := by
  refine ⟨filter_of_not_hasPlaceholders, fun h => ?_⟩
  by_contra hplaces
  rw [Bool.not_eq_false] at hplaces
  obtain ⟨path, hpath⟩ := exists_filter_ne hplaces
  exact hpath (h path)

end Pattern

/-! ### Placeholders of an expression -/

namespace Token

theorem wildcard_mem_ofExpression {expression : List Char} :
    .wildcard ∈ ofExpression expression ↔
      (Segment.split expression).any Segment.isPlaceholder = true := by
  rw [← List.count_pos_iff, count_wildcard_ofExpression, List.countP_pos_iff, List.any_eq_true]

end Token

theorem Pattern.hasPlaceholders_compile (replacement expression : List Char) :
    (compile replacement expression).hasPlaceholders =
      (Segment.split expression).any Segment.isPlaceholder := by
  rw [Bool.eq_iff_iff, hasPlaceholders_iff, compile_tokens, Token.wildcard_mem_ofExpression]

end PathVeil
