import PathVeil.Proofs.Pattern.Repetition

/-!
# PathVeil.Proofs.Pattern.Extension

Paths that go on. Text behind a path does not change how the pattern deals with what
is in front of it: literals have been compared already, and a wildcard that has stopped
at a separator stops there again. What becomes of the text depends on how the match of
the path came to its end.

* If tokens were matched to the last one, and text is left (`Token.Leaves`), the new
  text is left as well.
* If a wildcard took all the rest (`Token.Swallows`), it takes the new text too, unless
  this brings the separator at which the wildcard stops.

Both are judgements on the tokens and the path, with one constructor for each way in
which a token is matched, and each is preserved by more text (`Leaves.append`,
`Swallows.append`). The remainder of a match is known from them
(`remainder?_eq_some_iff`).
-/

namespace PathVeil

namespace Token

variable {tokens : List Token} {path rest more : Path}

/-! ### Two ways to match -/

/-- The tokens match the front of the path and leave the rest of it. Every wildcard
among them has stopped at a separator. -/
inductive Leaves : (tokens : List Token) → (path rest : Path) → Prop
  /-- All tokens have been matched. -/
  | nil (path : Path) : Leaves [] path path
  /-- A literal stands in front. -/
  | literal {tokens : List Token} {path rest : Path} (text : List Char)
    (h : Leaves tokens path rest) : Leaves (.literal text :: tokens) (text ++ path) rest
  /-- A wildcard takes what stands in front of the first separator. -/
  | wildcard {first : List Char} {tokens : List Token} {path rest : Path}
    (hfirst : separator ∉ first) (htokens : tokens ≠ [])
    (h : Leaves tokens (separator :: path) rest) :
    Leaves (.wildcard :: tokens) (first ++ separator :: path) rest

/-- The tokens match the path, and a wildcard among them takes the rest of it. -/
inductive Swallows : (tokens : List Token) → (path : Path) → Prop
  /-- The wildcard is the last token. -/
  | last (path : Path) : Swallows [.wildcard] path
  /-- There is no separator ahead of the wildcard. -/
  | ahead {path : Path} (tokens : List Token) (hpath : separator ∉ path) :
    Swallows (.wildcard :: tokens) path
  /-- A literal stands in front. -/
  | literal {tokens : List Token} {path : Path} (text : List Char) (h : Swallows tokens path) :
    Swallows (.literal text :: tokens) (text ++ path)
  /-- Another wildcard takes what stands in front of the first separator. -/
  | wildcard {first : List Char} {tokens : List Token} {path : Path}
    (hfirst : separator ∉ first) (htokens : tokens ≠ [])
    (h : Swallows tokens (separator :: path)) :
    Swallows (.wildcard :: tokens) (first ++ separator :: path)

/-! ### The remainder of a match -/

theorem Leaves.remainder?_eq_some (h : Leaves tokens path rest) :
    remainder? path tokens = some rest := by
  induction h with
  | nil path => exact remainder?_nil path
  | literal text _ ih => rw [remainder?_literal_append, ih]
  | wildcard hfirst htokens _ ih => rw [remainder?_wildcard_append hfirst _ htokens, ih]

theorem Swallows.remainder?_eq_some (h : Swallows tokens path) :
    remainder? path tokens = some [] := by
  induction h with
  | last path => rfl
  | ahead tokens hpath => exact remainder?_wildcard_of_not_mem hpath tokens
  | literal text _ ih => rw [remainder?_literal_append, ih]
  | wildcard hfirst htokens _ ih => rw [remainder?_wildcard_append hfirst _ htokens, ih]

theorem leaves_or_swallows (h : remainder? path tokens = some rest) :
    Leaves tokens path rest ∨ Swallows tokens path ∧ rest = [] := by
  induction tokens generalizing path with
  | nil =>
    rw [remainder?_nil, Option.some.injEq] at h
    exact Or.inl (h ▸ .nil path)
  | cons token tokens ih =>
    cases token with
    | literal text =>
      obtain ⟨next, rfl, hnext⟩ := remainder?_literal_eq_some_iff.mp h
      rcases ih hnext with hleaves | ⟨hswallows, hrest⟩
      · exact Or.inl (.literal text hleaves)
      · exact Or.inr ⟨.literal text hswallows, hrest⟩
    | wildcard =>
      by_cases hseparator : separator ∈ path
      · obtain ⟨first, next, rfl, hfirst⟩ := Segment.exists_first_separator hseparator
        by_cases htokens : tokens = []
        · subst htokens
          exact Or.inr ⟨.last _, (Option.some.inj h).symm⟩
        · rw [remainder?_wildcard_append hfirst next htokens] at h
          rcases ih h with hleaves | ⟨hswallows, hrest⟩
          · exact Or.inl (.wildcard hfirst htokens hleaves)
          · exact Or.inr ⟨.wildcard hfirst htokens hswallows, hrest⟩
      · rw [remainder?_wildcard_of_not_mem hseparator, Option.some.injEq] at h
        exact Or.inr ⟨.ahead tokens hseparator, h.symm⟩

/-- A match either leaves the rest of the path, or swallows it. -/
theorem remainder?_eq_some_iff :
    remainder? path tokens = some rest ↔
      Leaves tokens path rest ∨ Swallows tokens path ∧ rest = [] := by
  constructor
  · exact leaves_or_swallows
  · rintro (hleaves | ⟨hswallows, rfl⟩)
    · exact hleaves.remainder?_eq_some
    · exact hswallows.remainder?_eq_some

/-! ### More text -/

/-- Text behind the path is left, too. -/
theorem Leaves.append (h : Leaves tokens path rest) (more : Path) :
    Leaves tokens (path ++ more) (rest ++ more) := by
  induction h with
  | nil path => exact .nil (path ++ more)
  | literal text _ ih =>
    rw [List.append_assoc]
    exact .literal text ih
  | wildcard hfirst htokens _ ih =>
    rw [List.append_assoc]
    exact .wildcard hfirst htokens ih

/-- Text without separator is swallowed by the same wildcard. -/
theorem Swallows.append (h : Swallows tokens path) (hmore : separator ∉ more) :
    Swallows tokens (path ++ more) := by
  induction h with
  | last path => exact .last (path ++ more)
  | ahead tokens hpath =>
    refine .ahead tokens fun hmem => ?_
    exact (List.mem_append.mp hmem).elim hpath hmore
  | literal text _ ih =>
    rw [List.append_assoc]
    exact .literal text ih
  | wildcard hfirst htokens _ ih =>
    rw [List.append_assoc]
    exact .wildcard hfirst htokens ih

end Token

namespace Pattern

variable {pattern : Pattern} {path more : Path} {stop : Nat}

/-- A match that ends within the path is not touched by what follows. -/
theorem find_append_of_leading (h : pattern.find path = .leading stop) (more : Path) :
    pattern.find (path ++ more) = .leading stop ∧
      pattern.filter (path ++ more) = pattern.filter path ++ more := by
  obtain ⟨rest, hne, hrest, rfl⟩ := find_eq_leading_iff.mp h
  rcases Token.remainder?_eq_some_iff.mp hrest with hleaves | ⟨-, hnil⟩
  · have hmore := (hleaves.append more).remainder?_eq_some
    constructor
    · refine find_eq_leading_iff.mpr ⟨rest ++ more, by simp [hne], hmore, ?_⟩
      rw [byteSize_append, byteSize_append]
      omega
    · rw [filter_of_remainder hmore, filter_of_remainder hrest, List.append_assoc]
  · exact absurd hnil hne

/-- A match of the whole path takes the rest of the last segment, too, or ends where
the path has ended. -/
theorem find_append_of_full (h : pattern.find path = .full) (hmore : separator ∉ more) :
    pattern.find (path ++ more) = .full ∧ pattern.filter (path ++ more) = pattern.filter path ∨
      pattern.find (path ++ more) = .leading (byteSize path) ∧
        pattern.filter (path ++ more) = pattern.filter path ++ more := by
  have hpath := find_eq_full_iff.mp h
  rcases Token.remainder?_eq_some_iff.mp hpath with hleaves | ⟨hswallows, -⟩
  · by_cases hnil : more = []
    · rw [hnil, List.append_nil]
      exact Or.inl ⟨h, rfl⟩
    · have hrest := (hleaves.append more).remainder?_eq_some
      rw [List.nil_append] at hrest
      refine Or.inr ⟨find_eq_leading_iff.mpr ⟨more, hnil, hrest, ?_⟩, ?_⟩
      · rw [byteSize_append, Nat.add_sub_cancel]
      · rw [filter_of_remainder hrest, filter_of_remainder hpath, List.append_nil]
  · have hrest := (hswallows.append hmore).remainder?_eq_some
    refine Or.inl ⟨find_eq_full_iff.mpr hrest, ?_⟩
    rw [filter_of_remainder hrest, filter_of_remainder hpath]

/-- **Matching is stable under more text.**

* If a match ends within the path, it ends at the same byte however the path goes on,
  and what follows is carried over.
* If it takes the whole path, and the last segment of the path goes on, there still is
  a match: either it takes the new text as well, with the same result, or it ends
  where the path has ended, and the new text is carried over.
* A wildcard at the end leaves nothing of any path. -/
theorem find_append_stable (pattern : Pattern) :
    (∀ path stop, pattern.find path = .leading stop → ∀ more,
      pattern.find (path ++ more) = .leading stop ∧
        pattern.filter (path ++ more) = pattern.filter path ++ more) ∧
    (∀ path, pattern.find path = .full → ∀ more, separator ∉ more →
      pattern.find (path ++ more) ≠ .noMatch ∧
        (pattern.find (path ++ more) = .full ∧
            pattern.filter (path ++ more) = pattern.filter path ∨
          pattern.find (path ++ more) = .leading (byteSize path) ∧
            pattern.filter (path ++ more) = pattern.filter path ++ more)) ∧
    (pattern.tokens.getLast? = some .wildcard →
      ∀ path stop, pattern.find path ≠ .leading stop) := by
  refine ⟨fun path stop h => find_append_of_leading h, ?_, ?_⟩
  · intro path h more hmore
    have hcases := find_append_of_full h hmore
    refine ⟨?_, hcases⟩
    rcases hcases with ⟨hfind, -⟩ | ⟨hfind, -⟩
    · rw [hfind]
      nofun
    · rw [hfind]
      nofun
  · intro hlast path stop h
    obtain ⟨rest, hne, hrest, -⟩ := find_eq_leading_iff.mp h
    exact hne (Token.remainder_eq_nil_of_getLast? hrest hlast)

/-- A match within the path; one that takes the whole path exactly, and one that
swallows its end at a wildcard in the middle; and a pattern with a wildcard at the end. -/
theorem find_append_stable_orders :
    let orders := compile "XXX".toList "/o/{id}/x".toList
    let all := compile "XXX".toList "/o/{id}".toList
    (orders.find "/o/größe/x/é".toList = .leading 12 ∧
      orders.find ("/o/größe/x/é".toList ++ "/y".toList) = .leading 12 ∧
      orders.filter ("/o/größe/x/é".toList ++ "/y".toList) = "/o/XXX/x/é/y".toList) ∧
    (orders.find "/o/7/x".toList = .full ∧ separator ∉ "yz".toList ∧
      orders.filter ("/o/7/x".toList ++ "yz".toList) = "/o/XXX/xyz".toList) ∧
    (orders.find "/o/7".toList = .full ∧
      orders.filter ("/o/7".toList ++ "yz".toList) = "/o/XXX/x".toList) ∧
    all.tokens.getLast? = some .wildcard ∧ all.find "/o/7/x".toList ≠ .leading 4 := by
  intro orders all
  obtain ⟨hleading, hfull, -⟩ := find_append_stable orders
  have hwithin : orders.find "/o/größe/x/é".toList = .leading 12 := by decide
  have hexact : orders.find "/o/7/x".toList = .full := by decide
  have hswallowed : orders.find "/o/7".toList = .full := by decide
  have hmore : separator ∉ "yz".toList := by decide
  have hlast : all.tokens.getLast? = some .wildcard := by decide
  obtain ⟨hfind, hfilter⟩ := hleading _ _ hwithin "/y".toList
  refine ⟨⟨hwithin, hfind, hfilter.trans (by decide)⟩, ⟨hexact, hmore, ?_⟩, ⟨hswallowed, ?_⟩,
    hlast, (find_append_stable all).2.2 hlast _ _⟩
  · rcases (hfull _ hexact _ hmore).2 with ⟨hfind, -⟩ | ⟨-, hfilter⟩
    · exact absurd hfind (by decide)
    · exact hfilter.trans (by decide)
  · rcases (hfull _ hswallowed _ hmore).2 with ⟨-, hfilter⟩ | ⟨hfind, -⟩
    · exact hfilter.trans (by decide)
    · exact absurd hfind (by decide)

end Pattern

end PathVeil
