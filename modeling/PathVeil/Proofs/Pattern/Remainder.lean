import PathVeil.Pattern.Basic

/-!
# PathVeil.Proofs.Pattern.Remainder

What a match leaves of a path. The scan keeps an offset, counted in bytes, and
cuts the path there for every token, and so does the filter at the end. Both say
the same thing as one function without offsets, `Token.remainder?`: the text that
is left behind the match, if there is one.

* `Pattern.find_eq_ofRemainder` — the outcome, read off the remainder;
* `Pattern.filter_eq_of_remainder` — the filtered path, read off the remainder.

Statements about matching are proved of the remainder and carried over by these
two equations; no other proof handles offsets.
-/

namespace PathVeil

namespace Token

/-- What the tokens leave of a path, if they match it. -/
def remainder? (path : Path) : List Token → Option Path
  | [] => some path
  | .literal text :: tokens => (text.isPrefixOf? path).bind (remainder? · tokens)
  | .wildcard :: tokens =>
    if tokens.isEmpty || !path.contains separator then some []
    else remainder? (path.dropWhile (· ≠ separator)) tokens

@[simp] theorem remainder?_nil (path : Path) : remainder? path [] = some path := rfl

@[simp] theorem remainder?_literal (text : List Char) (path : Path) (tokens : List Token) :
    remainder? path (.literal text :: tokens) =
      (text.isPrefixOf? path).bind (remainder? · tokens) := rfl

/-- A literal takes itself from the front of a path. -/
theorem remainder?_literal_append (text : List Char) (path : Path) (tokens : List Token) :
    remainder? (text ++ path) (.literal text :: tokens) = remainder? path tokens := by
  rw [remainder?_literal, Cursor.isPrefixOf?_eq_some_iff.mpr rfl, Option.bind_some]

theorem remainder?_literal_eq_some_iff {text : List Char} {path rest : Path}
    {tokens : List Token} :
    remainder? path (.literal text :: tokens) = some rest ↔
      ∃ next, path = text ++ next ∧ remainder? next tokens = some rest := by
  simp only [remainder?_literal, Option.bind_eq_some_iff, Cursor.isPrefixOf?_eq_some_iff]

/-- A wildcard takes all of a path without separator. -/
theorem remainder?_wildcard_of_not_mem {path : Path} (h : separator ∉ path) (tokens : List Token) :
    remainder? path (.wildcard :: tokens) = some [] := by
  unfold remainder?
  rw [if_pos (by simp [h])]

/-- A wildcard in front of other tokens stops at the first separator. -/
theorem remainder?_wildcard_append {first : List Char} (h : separator ∉ first) (rest : Path)
    {tokens : List Token} (htokens : tokens ≠ []) :
    remainder? (first ++ separator :: rest) (.wildcard :: tokens) =
      remainder? (separator :: rest) tokens := by
  have hfirst : ∀ c ∈ first, decide (c ≠ separator) = true := by
    intro c hc
    exact decide_eq_true fun heq => h (heq ▸ hc)
  have hdrop : (first ++ separator :: rest).dropWhile (· ≠ separator) = separator :: rest := by
    rw [List.dropWhile_append_of_pos hfirst, List.dropWhile_cons_of_neg (by simp)]
  rw [remainder?, if_neg (by simp [htokens]), hdrop]

/-- What is left is the end of the path. -/
theorem suffix_of_remainder? {path rest : Path} {tokens : List Token}
    (h : remainder? path tokens = some rest) : rest <:+ path := by
  induction tokens generalizing path with
  | nil =>
    rw [remainder?_nil, Option.some.injEq] at h
    exact h ▸ List.suffix_refl path
  | cons token tokens ih =>
    cases token with
    | literal text =>
      obtain ⟨next, rfl, hnext⟩ := remainder?_literal_eq_some_iff.mp h
      exact (ih hnext).trans (List.suffix_append text next)
    | wildcard =>
      unfold remainder? at h
      split at h
      · rw [Option.some.injEq] at h
        exact h ▸ List.nil_suffix
      · exact (ih h).trans (List.dropWhile_suffix _)

end Token

/-! ### Outcomes -/

/-- The outcome of a match that leaves this remainder of a path of this size. -/
def Outcome.ofRemainder (size : Nat) : Option Path → Outcome
  | none => .noMatch
  | some rest => if rest.isEmpty then .full else .leading (size - byteSize rest)

@[simp] theorem Outcome.ofRemainder_none (size : Nat) : ofRemainder size none = .noMatch := rfl

@[simp] theorem Outcome.ofRemainder_nil (size : Nat) : ofRemainder size (some []) = .full := rfl

theorem Outcome.ofRemainder_some {size : Nat} {rest : Path} (h : rest ≠ []) :
    ofRemainder size (some rest) = .leading (size - byteSize rest) := by
  rw [ofRemainder, if_neg (by simpa using h)]

/-! ### Cuts -/

@[simp] theorem dropBytes?_zero (path : Path) : dropBytes? 0 path = some path := by
  cases path <;> rfl

/-- Cutting at the size of a front leaves what follows it. -/
theorem dropBytes?_append (front rest : Path) :
    dropBytes? (byteSize front) (front ++ rest) = some rest := by
  induction front with
  | nil => exact dropBytes?_zero rest
  | cons c front ih =>
    have hpos : c.utf8Size + byteSize front ≠ 0 := by
      have := c.utf8Size_pos
      omega
    rw [byteSize_cons, List.cons_append, dropBytes?, if_neg hpos, if_pos (Nat.le_add_right ..),
      Nat.add_sub_cancel_left, ih]

/-- Whether the cursor divides the path: what is behind it is the end of the path,
and the offset counts the bytes in front. -/
def Cursor.Divides (cursor : Cursor) (path : Path) : Prop :=
  ∃ front, path = front ++ cursor.rest ∧ cursor.offset = byteSize front

namespace Cursor

variable {path : Path} {cursor next : Cursor}

theorem divides_start (path : Path) : Divides ⟨0, path⟩ path := ⟨[], rfl, rfl⟩

/-- The path can be cut where a cursor divides it. -/
theorem Divides.at? (h : cursor.Divides path) : Cursor.at? path cursor.offset = some cursor := by
  obtain ⟨offset, rest⟩ := cursor
  obtain ⟨front, rfl, rfl⟩ := h
  rw [Cursor.at?, dropBytes?_append, Option.map_some]

/-- Behind a text that stands at the cursor, the path is divided again. -/
theorem Divides.skip? {text : List Char} (h : cursor.Divides path)
    (hskip : cursor.skip? text = some next) : next.Divides path := by
  obtain ⟨front, hpath, hoffset⟩ := h
  obtain ⟨hrest, hnext⟩ := skip?_eq_some_iff.mp hskip
  refine ⟨front ++ text, ?_, ?_⟩
  · rw [hpath, hrest, List.append_assoc]
  · rw [hnext, hoffset, byteSize_append]

/-- So it is at the next separator. -/
theorem Divides.toSeparator? (h : cursor.Divides path)
    (hnext : cursor.toSeparator? = some next) : next.Divides path := by
  obtain ⟨front, hpath, hoffset⟩ := h
  unfold Cursor.toSeparator? at hnext
  split at hnext
  · rw [Option.some.injEq] at hnext
    subst hnext
    refine ⟨front ++ cursor.rest.takeWhile (· ≠ separator), ?_, ?_⟩
    · rw [hpath, List.append_assoc, List.takeWhile_append_dropWhile]
    · rw [hoffset, byteSize_append]
  · cases hnext

/-- What is behind a cursor that divides the path is as large as what the offset
leaves. -/
theorem Divides.byteSize_eq (h : cursor.Divides path) :
    byteSize path = cursor.offset + byteSize cursor.rest := by
  obtain ⟨front, hpath, hoffset⟩ := h
  rw [hpath, hoffset, byteSize_append]

end Cursor

/-! ### Token by token -/

namespace Token

/-- **One token.** It does not match, or takes the rest, and so do the tokens as a
whole; or the match goes on at a cursor that divides the path again, and the tokens
behind leave there what all leave here. -/
theorem step_cases {path : Path} {cursor : Cursor} (h : cursor.Divides path) (token : Token)
    (tokens : List Token) :
    (token.step tokens.isEmpty cursor = .fail ∧ remainder? cursor.rest (token :: tokens) = none) ∨
      (token.step tokens.isEmpty cursor = .rest ∧
        remainder? cursor.rest (token :: tokens) = some []) ∨
      ∃ next : Cursor, token.step tokens.isEmpty cursor = .next next.offset ∧ next.Divides path ∧
        remainder? cursor.rest (token :: tokens) = remainder? next.rest tokens := by
  cases token with
  | literal text =>
    rw [step, remainder?_literal]
    cases hskip : cursor.skip? text with
    | none =>
      rw [Cursor.skip?, Option.map_eq_none_iff] at hskip
      rw [hskip]
      exact Or.inl ⟨rfl, rfl⟩
    | some next =>
      have hrest := Cursor.isPrefixOf?_eq_some_iff.mpr (Cursor.skip?_eq_some_iff.mp hskip).1
      rw [hrest]
      exact Or.inr (Or.inr ⟨next, rfl, h.skip? hskip, rfl⟩)
  | wildcard =>
    rw [step, remainder?]
    cases hlast : tokens.isEmpty with
    | true => exact Or.inr (Or.inl ⟨rfl, rfl⟩)
    | false =>
      simp only [Bool.false_or, Bool.false_eq_true, if_false]
      cases hcontains : cursor.rest.contains separator with
      | false =>
        have hnone : cursor.toSeparator? = none := by
          rw [Cursor.toSeparator?, hcontains, if_neg Bool.false_ne_true]
        rw [hnone]
        exact Or.inr (Or.inl ⟨rfl, rfl⟩)
      | true =>
        have hsome : cursor.toSeparator? = some
            ⟨cursor.offset + byteSize (cursor.rest.takeWhile (· ≠ separator)),
              cursor.rest.dropWhile (· ≠ separator)⟩ := by
          rw [Cursor.toSeparator?, hcontains, if_pos rfl]
        rw [hsome]
        exact Or.inr (Or.inr ⟨_, rfl, h.toSeparator? hsome, by simp⟩)

/-- **The scan, without offsets.** The path can be cut for every token, and the
offset at which the scan stops is known from the remainder alone. -/
theorem scan?_eq_ofRemainder {path : Path} {cursor : Cursor} (h : cursor.Divides path)
    (tokens : List Token) :
    scan? path cursor.offset tokens =
      some (.ofRemainder (byteSize path) (remainder? cursor.rest tokens)) := by
  induction tokens generalizing cursor with
  | nil =>
    have hend : cursor.offset = byteSize path ↔ cursor.rest = [] := by
      rw [h.byteSize_eq, Nat.left_eq_add, byteSize_eq_zero_iff]
    rw [scan?, remainder?_nil]
    by_cases hnil : cursor.rest = []
    · rw [if_pos (hend.mpr hnil), hnil, Outcome.ofRemainder_nil]
    · rw [if_neg (mt hend.mp hnil), Outcome.ofRemainder_some hnil, h.byteSize_eq,
        Nat.add_sub_cancel]
  | cons token tokens ih =>
    unfold scan?
    rw [h.at?]
    obtain ⟨hstep, hnone⟩ | ⟨hstep, hall⟩ | ⟨next, hstep, hnext, hsame⟩ :=
      step_cases h token tokens
    · simp only [hstep, hnone, Outcome.ofRemainder_none]
    · simp only [hstep, hall, Outcome.ofRemainder_nil]
    · simp only [hstep, hsame]
      exact ih hnext

end Token

/-! ### The filter -/

namespace Pattern

/-- The scan of a whole path always comes to an outcome. -/
theorem find?_eq_ofRemainder (pattern : Pattern) (path : Path) :
    pattern.find? path =
      some (.ofRemainder (byteSize path) (Token.remainder? path pattern.tokens)) :=
  Token.scan?_eq_ofRemainder (Cursor.divides_start path) pattern.tokens

/-- The outcome on a path, from what the pattern leaves of it. -/
theorem find_eq_ofRemainder (pattern : Pattern) (path : Path) :
    pattern.find path =
      .ofRemainder (byteSize path) (Token.remainder? path pattern.tokens) := by
  rw [find, find?_eq_ofRemainder, Option.getD_some]

/-- The text that is handed back after a match that leaves `rest`. -/
theorem rendered_leading_path (pattern : Pattern) (front rest : Path) :
    (pattern.rendered (front ++ rest) (.leading (byteSize front))).path =
      pattern.substitute ++ rest := by
  rw [rendered, rendered?, dropBytes?_append]
  cases hsubstitute : pattern.substitute with
  | nil => rfl
  | cons c substitute => rfl

/-- **The filter, without offsets.** A path that does not match stays; of a path
that matches, the substitute and the remainder are left. -/
theorem filter_eq_of_remainder (pattern : Pattern) (path : Path) :
    pattern.filter path =
      (Token.remainder? path pattern.tokens).elim path (pattern.substitute ++ ·) := by
  cases hrest : Token.remainder? path pattern.tokens with
  | none =>
    have hfind : pattern.find path = .noMatch := by rw [find_eq_ofRemainder, hrest]; rfl
    rw [filter_of_noMatch hfind]
    rfl
  | some rest =>
    by_cases hnil : rest = []
    · have hfind : pattern.find path = .full := by rw [find_eq_ofRemainder, hrest, hnil]; rfl
      rw [filter_of_full hfind, hnil]
      exact (List.append_nil _).symm
    · obtain ⟨front, rfl⟩ := Token.suffix_of_remainder? hrest
      have hfind : pattern.find (front ++ rest) = .leading (byteSize front) := by
        rw [find_eq_ofRemainder, hrest, Outcome.ofRemainder_some hnil, byteSize_append,
          Nat.add_sub_cancel]
      rw [filter, apply, hfind]
      exact rendered_leading_path pattern front rest

/-! ### Reading remainders off -/

section Outcomes

variable {pattern : Pattern} {path rest : Path} {stop : Nat}

theorem find_eq_full_iff :
    pattern.find path = .full ↔ Token.remainder? path pattern.tokens = some [] := by
  rw [find_eq_ofRemainder]
  cases Token.remainder? path pattern.tokens with
  | none => simp
  | some rest => cases rest <;> simp [Outcome.ofRemainder]

theorem find_eq_leading_iff :
    pattern.find path = .leading stop ↔ ∃ rest, rest ≠ [] ∧
      Token.remainder? path pattern.tokens = some rest ∧ stop = byteSize path - byteSize rest := by
  rw [find_eq_ofRemainder]
  constructor
  · intro h
    cases hrest : Token.remainder? path pattern.tokens with
    | none =>
      rw [hrest] at h
      cases h
    | some rest =>
      rw [hrest] at h
      by_cases hnil : rest = []
      · rw [hnil] at h
        cases h
      · rw [Outcome.ofRemainder_some hnil, Outcome.leading.injEq] at h
        exact ⟨rest, hnil, rfl, h.symm⟩
  · rintro ⟨rest, hnil, hrest, rfl⟩
    rw [hrest, Outcome.ofRemainder_some hnil]

/-- Of a path that matches, the substitute and the remainder are left. -/
theorem filter_of_remainder (h : Token.remainder? path pattern.tokens = some rest) :
    pattern.filter path = pattern.substitute ++ rest := by
  rw [filter_eq_of_remainder, h, Option.elim_some]

end Outcomes

end Pattern

end PathVeil
