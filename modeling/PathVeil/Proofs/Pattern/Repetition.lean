import PathVeil.Proofs.Pattern.Alternation

/-!
# PathVeil.Proofs.Pattern.Repetition

A pattern on its own output. The second match runs over text that the first one
has put together, and each replacement in it has to be taken by the wildcard that
it stands for, and by no more than that. A replacement without separator is:
a wildcard in front of another token stops at a separator, and by the shape of
compiled tokens the text behind it begins with one (`Token.WildcardsStop`). At the
end of a pattern any replacement is, since the wildcard there takes all that follows.

So the second match leaves what the first has left (`Pattern.remainder?_filter`),
has the same kind of outcome, and filtering twice is filtering once
(`Pattern.filter_idempotent`).
-/

namespace PathVeil

namespace Token

variable {text replacement : List Char} {path rest : Path} {tokens : List Token}

/-! ### The text behind a wildcard -/

/-- Whether every wildcard is the last token, or stands in front of a literal that
begins with a separator. -/
def WildcardsStop : List Token → Prop
  | [] => True
  | .literal _ :: tokens => WildcardsStop tokens
  | .wildcard :: tokens =>
    (tokens = [] ∨ ∃ text more, tokens = .literal (separator :: text) :: more) ∧
      WildcardsStop tokens

theorem Shaped.wildcardsStop (h : Shaped tokens) : WildcardsStop tokens := by
  induction tokens with
  | nil => trivial
  | cons token tokens ih =>
    cases token with
    | literal text =>
      obtain ⟨-, -, -, htokens⟩ := shaped_literal_cons_iff.mp h
      exact ih htokens
    | wildcard =>
      obtain ⟨hnext, htokens⟩ := shaped_wildcard_cons_iff.mp h
      exact ⟨hnext, ih htokens⟩

/-! ### Matching the substitute -/

/-- A wildcard at the end leaves nothing. -/
theorem remainder_eq_nil_of_getLast? (h : remainder? path tokens = some rest)
    (hlast : tokens.getLast? = some .wildcard) : rest = [] := by
  induction tokens generalizing path with
  | nil => cases hlast
  | cons token tokens ih =>
    by_cases hend : tokens = []
    · subst hend
      rw [List.getLast?_singleton, Option.some.injEq] at hlast
      subst hlast
      exact (Option.some.inj h).symm
    · have hrest : tokens.getLast? = some .wildcard := by
        rwa [List.getLast?_cons_of_ne_nil hend] at hlast
      cases token with
      | literal text =>
        obtain ⟨next, -, hnext⟩ := remainder?_literal_eq_some_iff.mp h
        exact ih hnext hrest
      | wildcard =>
        rw [remainder?] at h
        split at h
        · exact (Option.some.inj h).symm
        · exact ih h hrest

/-- With replacements that hold no separator, unless they come last, the tokens match
their own text, and leave what follows it. Only where the last of them is a wildcard
may nothing follow. -/
theorem remainder?_fill_append (hstop : WildcardsStop tokens)
    (h : .wildcard ∈ tokens.dropLast → separator ∉ replacement)
    (hrest : tokens.getLast? = some .wildcard → rest = []) :
    remainder? (fill replacement tokens ++ rest) tokens = some rest := by
  induction tokens with
  | nil => rfl
  | cons token tokens ih =>
    have hbehind : tokens.getLast? = some .wildcard → rest = [] := by
      intro hlast
      refine hrest ?_
      rw [List.getLast?_cons, hlast, Option.getD_some]
    have hmore : .wildcard ∈ tokens.dropLast → separator ∉ replacement := by
      intro hmem
      refine h ?_
      rw [List.dropLast_cons_of_ne_nil (fun hnil => by simp [hnil] at hmem)]
      exact List.mem_cons_of_mem _ hmem
    cases token with
    | literal text =>
      rw [fill_cons, List.append_assoc, Token.text, remainder?_literal_append]
      exact ih hstop hmore hbehind
    | wildcard =>
      obtain ⟨rfl | ⟨text, more, rfl⟩, hstop⟩ := hstop
      · rw [hrest rfl]
        rfl
      · -- The replacement ends where the next literal begins, at its separator.
        have hreplacement : separator ∉ replacement := h List.mem_cons_self
        have hfill : fill replacement (.wildcard :: .literal (separator :: text) :: more) ++ rest =
            replacement ++ separator :: (text ++ fill replacement more ++ rest) := by
          simp [Token.text]
        rw [hfill, remainder?_wildcard_append hreplacement _ (List.cons_ne_nil _ _)]
        have hrest := ih hstop hmore hbehind
        rwa [fill_cons, Token.text, List.cons_append, List.cons_append] at hrest

theorem wildcard_mem_prepend : .wildcard ∈ prepend text tokens ↔ .wildcard ∈ tokens := by
  rw [← List.count_pos_iff, count_wildcard_prepend, List.count_pos_iff]

theorem wildcard_not_mem_prepend (text : List Char) : .wildcard ∉ prepend text [] :=
  mt wildcard_mem_prepend.mp List.not_mem_nil

/-- Segments of which at most the last is a placeholder have at most their last token
for a wildcard. -/
theorem wildcard_not_mem_dropLast (text : List Char) {segments : List (List Char)}
    (h : ∀ segment ∈ segments.dropLast, Segment.isPlaceholder segment = false) :
    .wildcard ∉ (ofSegments text segments).dropLast := by
  induction segments generalizing text with
  | nil =>
    intro hmem
    exact wildcard_not_mem_prepend text (List.dropLast_subset _ hmem)
  | cons segment others ih =>
    rw [ofSegments]
    cases others with
    | nil =>
      by_cases hplace : Segment.isPlaceholder segment = true
      · -- The wildcard is the last token; in front of it there is only the open text.
        have hlast : (prepend text [.wildcard]).dropLast = prepend text [] := by
          cases text <;> rfl
        rw [if_pos hplace, ofSegments, gap_nil, prepend_nil, hlast]
        exact wildcard_not_mem_prepend text
      · rw [if_neg hplace, ofSegments]
        intro hmem
        exact wildcard_not_mem_prepend _ (List.dropLast_subset _ hmem)
    | cons next others =>
      rw [List.dropLast_cons_of_ne_nil (List.cons_ne_nil _ _)] at h
      have hplace := h segment List.mem_cons_self
      rw [if_neg (by simp [hplace])]
      exact ih _ fun other hother => h other (List.mem_cons_of_mem _ hother)

end Token

/-! ### Filtering twice -/

namespace Pattern

variable {pattern : Pattern}

theorem wildcardsStop (pattern : Pattern) : Token.WildcardsStop pattern.tokens := by
  rw [pattern.tokens_eq]
  exact (Token.shaped_ofExpression pattern.expression).wildcardsStop

/-- What a pattern leaves of its own output is what it has left of the path. -/
theorem remainder?_filter
    (h : .wildcard ∈ pattern.tokens.dropLast → separator ∉ pattern.replacement) (path : Path) :
    Token.remainder? (pattern.filter path) pattern.tokens =
      Token.remainder? path pattern.tokens := by
  rw [filter_eq_of_remainder]
  cases hrest : Token.remainder? path pattern.tokens with
  | none => exact hrest
  | some rest =>
    rw [Option.elim_some, pattern.substitute_eq]
    exact Token.remainder?_fill_append pattern.wildcardsStop h
      (Token.remainder_eq_nil_of_getLast? hrest)

theorem filter_filter
    (h : .wildcard ∈ pattern.tokens.dropLast → separator ∉ pattern.replacement) (path : Path) :
    pattern.filter (pattern.filter path) = pattern.filter path := by
  rw [filter_eq_of_remainder pattern (pattern.filter path), remainder?_filter h,
    filter_eq_of_remainder pattern path]
  cases Token.remainder? path pattern.tokens with
  | none => rfl
  | some rest => rfl

/-- **Filtering is idempotent.** If the replacement holds no separator, or no segment
but the last is a placeholder, filtering the output again changes nothing, and the
match on the output has the kind of the match on the path. -/
theorem filter_idempotent (replacement expression : List Char) (path : Path)
    (h : separator ∉ replacement ∨
      ∀ segment ∈ (Segment.significant expression).dropLast,
        Segment.isPlaceholder segment = false) :
    (compile replacement expression).filter ((compile replacement expression).filter path) =
        (compile replacement expression).filter path ∧
      ((compile replacement expression).find
          ((compile replacement expression).filter path)).extent? =
        ((compile replacement expression).find path).extent? := by
  have hwildcards : .wildcard ∈ (compile replacement expression).tokens.dropLast →
      separator ∉ (compile replacement expression).replacement := by
    intro hmem
    rcases h with hreplacement | hplaces
    · exact hreplacement
    · exact absurd hmem (Token.wildcard_not_mem_dropLast [] hplaces)
  constructor
  · exact filter_filter hwildcards path
  · exact (filter_eq_of_remainder?_eq (remainder?_filter hwildcards path)).1

/-- A replacement that looks like a literal of the pattern, after a match that took
the rest of the path; and one with a separator, at the end of the pattern. -/
theorem filter_idempotent_lookalikes :
    (separator ∉ "items".toList ∧
      (compile "items".toList "/o/{id}/items/{n}".toList).filter
          ((compile "items".toList "/o/{id}/items/{n}".toList).filter "/o/7".toList) =
        "/o/items/items/items".toList ∧
      ((compile "items".toList "/o/{id}/items/{n}".toList).find
          ((compile "items".toList "/o/{id}/items/{n}".toList).filter "/o/7".toList)).extent? =
        some .full) ∧
    (∀ segment ∈ (Segment.significant "/o/{id}/".toList).dropLast,
        Segment.isPlaceholder segment = false) ∧
      (compile "a/b".toList "/o/{id}/".toList).filter
          ((compile "a/b".toList "/o/{id}/".toList).filter "/o/7/x".toList) =
        "/o/a/b".toList := by
  have hreplacement : separator ∉ "items".toList := by decide
  have hplaces : ∀ segment ∈ (Segment.significant "/o/{id}/".toList).dropLast,
      Segment.isPlaceholder segment = false := by decide
  have hinner := filter_idempotent "items".toList "/o/{id}/items/{n}".toList "/o/7".toList
    (.inl hreplacement)
  have hlast := filter_idempotent "a/b".toList "/o/{id}/".toList "/o/7/x".toList (.inr hplaces)
  exact ⟨⟨hreplacement, hinner.1.trans (by decide), hinner.2.trans (by decide)⟩,
    hplaces, hlast.1.trans (by decide)⟩

end Pattern

end PathVeil
