import PathVeil.Proofs.Engine.Run
import PathVeil.Proofs.Pattern.Extension

/-!
# PathVeil.Proofs.Engine.Boundaries

Every cut is possible. A path is cut at a byte for each token, and once more to keep
what is behind a match. The bytes are found by adding up sizes of texts, from the
pattern and from the path, and nothing on the way asks whether a character ends there.

## Proof shape

A position is a boundary if it counts the bytes of some front of the path, and there
the path can be cut (`dropBytes?_eq_some_iff`). `Cursor.Divides` is the invariant of
the pass, and `Token.step_cases` says that a token preserves it. So by induction it
holds wherever a token is looked at (`Token.isBoundary_of_mem_offsets`), and where
the pass ends (`Token.getLast?_offsets`). A compiled pattern has no empty literal
(`Token.Shaped.literal_ne_nil`), so a match that takes nothing has had no tokens.
-/

namespace PathVeil

/-! ### Boundaries -/

/-- Whether a byte position of the path lies between two characters or at an end. -/
def IsBoundary (path : Path) (n : Nat) : Prop :=
  ∃ front rest, path = front ++ rest ∧ byteSize front = n

variable {path rest : Path} {n : Nat}

theorem IsBoundary.le (h : IsBoundary path n) : n ≤ byteSize path := by
  obtain ⟨front, rest, rfl, rfl⟩ := h
  rw [byteSize_append]
  exact Nat.le_add_right ..

theorem dropBytes?_eq_some_iff :
    dropBytes? n path = some rest ↔ ∃ front, path = front ++ rest ∧ byteSize front = n := by
  constructor
  · intro h
    induction path generalizing n with
    | nil =>
      unfold dropBytes? at h
      split at h
      case isTrue hzero =>
        obtain rfl := Option.some.inj h
        exact ⟨[], rfl, hzero.symm⟩
      case isFalse => cases h
    | cons c path ih =>
      unfold dropBytes? at h
      split at h
      case isTrue hzero =>
        obtain rfl := Option.some.inj h
        exact ⟨[], rfl, hzero.symm⟩
      case isFalse =>
        split at h
        case isTrue hsize =>
          obtain ⟨front, rfl, hfront⟩ := ih h
          refine ⟨c :: front, rfl, ?_⟩
          rw [byteSize_cons, hfront, Nat.add_sub_cancel' hsize]
        case isFalse => cases h
  · intro h
    obtain ⟨front, hpath, hn⟩ := h
    rw [hpath, ← hn, dropBytes?_append]

/-- Boundaries are where a path can be cut. -/
theorem isSome_dropBytes?_iff : (dropBytes? n path).isSome = true ↔ IsBoundary path n := by
  simp only [Option.isSome_iff_exists, dropBytes?_eq_some_iff, IsBoundary]
  exact exists_comm

instance (path : Path) : DecidablePred (IsBoundary path) :=
  fun _ => decidable_of_iff _ isSome_dropBytes?_iff

theorem Cursor.Divides.isBoundary {cursor : Cursor} (h : cursor.Divides path) :
    IsBoundary path cursor.offset := by
  obtain ⟨front, hpath, hoffset⟩ := h
  exact ⟨front, cursor.rest, hpath, hoffset.symm⟩

/-- The byte at which a match ends, in a path of this size. -/
def Outcome.stop? (size : Nat) : Outcome → Option Nat
  | .noMatch => none
  | .full => some size
  | .leading stop => some stop

/-! ### The pass -/

namespace Token

variable {cursor : Cursor} {tokens : List Token}

/-- The positions of the cursor: in front of each token that is looked at, and where
the pass comes to its end. A wildcard that takes the rest puts it at the end of the
path. -/
def offsets (path : Path) (offset : Nat) : List Token → List Nat
  | [] => [offset]
  | token :: tokens =>
    offset :: match (Cursor.at? path offset).map (token.step tokens.isEmpty) with
      | some (.next next) => offsets path next tokens
      | some .rest => [byteSize path]
      | _ => []

/-- From a boundary on, the cursor stays on boundaries. -/
theorem isBoundary_of_mem_offsets (h : cursor.Divides path) (tokens : List Token)
    (hn : n ∈ offsets path cursor.offset tokens) : IsBoundary path n := by
  induction tokens generalizing cursor with
  | nil =>
    rw [offsets, List.mem_singleton] at hn
    rw [hn]
    exact h.isBoundary
  | cons token tokens ih =>
    rw [offsets, h.at?, Option.map_some, List.mem_cons] at hn
    obtain rfl | hn := hn
    · exact h.isBoundary
    · obtain ⟨hstep, -⟩ | ⟨hstep, -⟩ | ⟨next, hstep, hnext, -⟩ := step_cases h token tokens
      · simp only [hstep, List.not_mem_nil] at hn
      · simp only [hstep, List.mem_singleton] at hn
        exact ⟨path, [], (List.append_nil path).symm, hn.symm⟩
      · simp only [hstep] at hn
        exact ih hnext hn

/-- A match ends at the last of the positions. -/
theorem getLast?_offsets {outcome : Outcome} (h : cursor.Divides path)
    (hscan : scan? path cursor.offset tokens = some outcome)
    (hn : outcome.stop? (byteSize path) = some n) :
    (offsets path cursor.offset tokens).getLast? = some n := by
  induction tokens generalizing cursor with
  | nil =>
    rw [scan?, Option.some.injEq] at hscan
    rw [offsets, ← hn, ← hscan]
    by_cases hend : cursor.offset = byteSize path
    · rw [if_pos hend, hend]
      rfl
    · rw [if_neg hend]
      rfl
  | cons token tokens ih =>
    rw [scan?, h.at?] at hscan
    rw [offsets, h.at?, Option.map_some]
    obtain ⟨hstep, -⟩ | ⟨hstep, -⟩ | ⟨next, hstep, hnext, -⟩ := step_cases h token tokens
    · simp only [hstep, Option.some.injEq] at hscan
      rw [← hscan] at hn
      cases hn
    · simp only [hstep, Option.some.injEq] at hscan ⊢
      rw [← hscan] at hn
      exact hn
    · simp only [hstep] at hscan ⊢
      rw [List.getLast?_cons, ih hnext hscan, Option.getD_some]

/-! ### Tokens that take something -/

/-- Tokens that leave the rest of a path have taken something of it. -/
theorem Leaves.byteSize_lt (h : Leaves tokens path rest) (htokens : tokens ≠ [])
    (hliteral : ∀ text, .literal text ∈ tokens → text ≠ []) : byteSize rest < byteSize path := by
  induction h with
  | nil => exact absurd rfl htokens
  | @literal tokens path rest text h ih =>
    have hpos : 0 < byteSize text :=
      Nat.pos_of_ne_zero (mt byteSize_eq_zero_iff.mp (hliteral text List.mem_cons_self))
    rw [byteSize_append]
    by_cases hmore : tokens = []
    · subst hmore
      cases h
      exact Nat.lt_add_of_pos_left hpos
    · have := ih hmore fun text hmem => hliteral text (List.mem_cons_of_mem _ hmem)
      omega
  | @wildcard first tokens path rest hfirst hmore h ih =>
    have := ih hmore fun text hmem => hliteral text (List.mem_cons_of_mem _ hmem)
    rw [byteSize_append]
    omega

end Token

namespace Pattern

variable {pattern : Pattern} {stop : Nat}

/-- The path after the pattern, if every cut on the way is possible: one for each
token that is looked at, and the one that keeps what is behind the match. -/
def filter? (pattern : Pattern) (path : Path) : Option Path :=
  (pattern.find? path).bind (pattern.render? path)

theorem find?_eq_some (pattern : Pattern) (path : Path) :
    pattern.find? path = some (pattern.find path) := by
  rw [find?_eq_ofRemainder, find_eq_ofRemainder]

/-- A match that stops within the path stops where the pass has come to its end. -/
theorem getLast?_offsets_of_find (h : pattern.find path = .leading stop) :
    (Token.offsets path 0 pattern.tokens).getLast? = some stop := by
  have hscan : pattern.find? path = some (.leading stop) := by rw [find?_eq_some, h]
  exact Token.getLast?_offsets (Cursor.divides_start path) hscan rfl

/-- It stops in front of the end, at a boundary, and behind the first character, unless
there are no tokens. -/
theorem isBoundary_of_find_eq_leading (h : pattern.find path = .leading stop) :
    stop < byteSize path ∧ IsBoundary path stop ∧ (stop = 0 → pattern.tokens = []) := by
  have hboundary := Token.isBoundary_of_mem_offsets (Cursor.divides_start path) pattern.tokens
    (List.mem_of_getLast? (getLast?_offsets_of_find h))
  obtain ⟨rest, hne, hrest, hsize⟩ := find_eq_leading_iff.mp h
  have hpos : byteSize rest ≠ 0 := mt byteSize_eq_zero_iff.mp hne
  have hle : byteSize rest ≤ byteSize path := by
    obtain ⟨front, hpath⟩ := Token.suffix_of_remainder? hrest
    rw [← hpath, byteSize_append]
    exact Nat.le_add_left ..
  refine ⟨by omega, hboundary, ?_⟩
  intro hzero
  refine Classical.byContradiction fun htokens => ?_
  obtain hleaves | ⟨-, hnil⟩ := Token.remainder?_eq_some_iff.mp hrest
  · have hliteral : ∀ text, .literal text ∈ pattern.tokens → text ≠ [] := by
      rw [pattern.tokens_eq]
      exact (Token.shaped_ofExpression pattern.expression).literal_ne_nil
    have := hleaves.byteSize_lt htokens hliteral
    omega
  · exact hne hnil

theorem render?_find (pattern : Pattern) (path : Path) :
    pattern.render? path (pattern.find path) = some (pattern.filter path) := by
  have hsome : (pattern.rendered? path (pattern.find path)).isSome = true := by
    cases hfind : pattern.find path with
    | noMatch => rfl
    | full => rfl
    | leading stop =>
      rw [rendered?, Option.isSome_map]
      exact isSome_dropBytes?_iff.mpr (isBoundary_of_find_eq_leading hfind).2.1
  obtain ⟨rendered, hrendered⟩ := Option.isSome_iff_exists.mp hsome
  rw [render?, filter, apply, Pattern.rendered, hrendered, Option.map_some, Option.getD_some]

theorem filter?_eq_some (pattern : Pattern) (path : Path) :
    pattern.filter? path = some (pattern.filter path) := by
  rw [filter?, find?_eq_some, Option.bind_some, render?_find]

end Pattern

/-- The path after all rules, if every cut on the way is possible. -/
def Engine.filter? (engine : Engine) (path : Path) : Option Path :=
  engine.rules.foldlM (fun current rule => rule.pattern.filter? current) path

theorem Engine.filter?_eq_some (engine : Engine) (path : Path) :
    engine.filter? path = some (engine.filter path) := by
  unfold Engine.filter?
  simp only [Pattern.filter?_eq_some]
  rw [filter_eq_foldl, List.foldl_map]
  exact List.foldlM_pure

/-- **Every cut is possible.**

* Wherever a token is looked at, and where the pass ends, the cursor is at a boundary
  of the path. So every token can cut the path, and there is an outcome.
* A match that stops within the path stops at the last of these positions. This is in
  front of the end, at a boundary, and the first byte only if the pattern has no tokens.
  So what is behind can be kept.
* Both hold of every rule of an engine, on what the rules before it have left. -/
theorem matching_stays_on_boundaries :
    (∀ (pattern : Pattern) (path : Path),
      (∀ n ∈ Token.offsets path 0 pattern.tokens, n ≤ byteSize path ∧ IsBoundary path n) ∧
      (∀ stop, pattern.find path = .leading stop →
        (Token.offsets path 0 pattern.tokens).getLast? = some stop ∧ stop < byteSize path ∧
          IsBoundary path stop ∧ (stop = 0 → pattern.tokens = [])) ∧
      pattern.find? path = some (pattern.find path) ∧
      pattern.render? path (pattern.find path) = some (pattern.filter path)) ∧
    ∀ (engine : Engine) (path : Path), engine.filter? path = some (engine.filter path) := by
  refine ⟨fun pattern path => ⟨?_, ?_, pattern.find?_eq_some path, pattern.render?_find path⟩,
    Engine.filter?_eq_some⟩
  · intro n hn
    have hboundary :=
      Token.isBoundary_of_mem_offsets (Cursor.divides_start path) pattern.tokens hn
    exact ⟨hboundary.le, hboundary⟩
  · intro stop hfind
    exact ⟨Pattern.getLast?_offsets_of_find hfind, Pattern.isBoundary_of_find_eq_leading hfind⟩

/-- Characters of two bytes in front of the stop, and behind it. -/
theorem matching_stays_on_boundaries_orders :
    let orders := Pattern.compile "XXX".toList "/o/{id}/x".toList
    let path := "/o/größe/x/é".toList
    Token.offsets path 0 orders.tokens = [0, 3, 10, 12] ∧ ¬ IsBoundary path 6 ∧
      orders.find path = .leading 12 ∧ 12 < byteSize path ∧ IsBoundary path 12 ∧
      orders.find? path = some (.leading 12) := by
  intro orders path
  obtain ⟨-, hstop, hfind?, -⟩ := matching_stays_on_boundaries.1 orders path
  have hoffsets : Token.offsets path 0 orders.tokens = [0, 3, 10, 12] := by decide
  have hinside : ¬ IsBoundary path 6 := by decide
  have hfind : orders.find path = .leading 12 := by decide
  obtain ⟨-, hlt, hboundary, -⟩ := hstop 12 hfind
  rw [hfind] at hfind?
  exact ⟨hoffsets, hinside, hfind, hlt, hboundary, hfind?⟩

end PathVeil
