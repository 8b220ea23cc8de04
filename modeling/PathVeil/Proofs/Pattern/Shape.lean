import Mathlib.Data.List.DropRight
import Mathlib.Data.List.Forall2
import PathVeil.Proofs.Pattern.Placeholders

/-!
# PathVeil.Proofs.Pattern.Shape

What the tokens of an expression still tell about it. They merge neighbouring
segments and the separators around them into single texts, and they have no names
for their wildcards. Only these names are lost, and the separators at the end of the
expression: two expressions have the same tokens exactly if their segments are the
same, save for the names of placeholders.

## Proof shape

Tokens that are filled with a placeholder make a text that can be cut into segments
again (`Segment.Tidy.significant_join`): the literal texts have all the separators
in them, and a placeholder has none. So from the tokens the segments are known, with
one placeholder for all of them (`Token.significant_fill`). The other direction is an
induction along the segments, where the open text of the tokenizer is the same for
both expressions (`Token.ofSegments_congr`).
-/

namespace PathVeil

namespace Segment

variable {segments first second : List (List Char)} {last filler : List Char}

/-! ### Trimming -/

theorem trim_concat_nil (segments : List (List Char)) : trim (segments ++ [[]]) = trim segments :=
  List.rdropWhile_concat_pos _ _ _ rfl

theorem trim_concat (h : last ≠ []) (segments : List (List Char)) :
    trim (segments ++ [last]) = segments ++ [last] :=
  List.rdropWhile_concat_neg _ _ _ (by simpa using h)

theorem trim_trim (segments : List (List Char)) : trim (trim segments) = trim segments :=
  List.rdropWhile_idempotent _ _

theorem trim_eq_self_iff : trim segments = segments ↔ segments.getLast? ≠ some [] := by
  rcases List.eq_nil_or_concat' segments with rfl | ⟨front, last, rfl⟩
  · simp [trim]
  · rw [List.getLast?_concat, Ne, Option.some.injEq]
    by_cases hlast : last = []
    · -- Something is left out, so what is left is shorter.
      have hlength : (trim front).length ≤ front.length := (List.rdropWhile_prefix _ _).length_le
      rw [hlast, trim_concat_nil]
      refine iff_of_false (fun heq => ?_) (fun h => h rfl)
      rw [heq, List.length_append, List.length_singleton] at hlength
      omega
    · rw [trim_concat hlast]
      exact iff_of_true rfl hlast

/-! ### Joining and cutting again -/

/-- Segments without separators are those of their text. -/
theorem split_join (hne : segments ≠ []) (h : ∀ segment ∈ segments, separator ∉ segment) :
    split (join segments) = segments := by
  induction segments with
  | nil => exact absurd rfl hne
  | cons segment others ih =>
    rw [List.forall_mem_cons] at h
    by_cases hothers : others = []
    · rw [hothers, join_singleton, split_of_not_mem h.1]
    · rw [join_cons _ hothers, split_append_separator h.1, ih hothers h.2]

/-- An empty last segment adds a separator. -/
theorem join_concat_nil (h : segments ≠ []) :
    join (segments ++ [[]]) = join segments ++ [separator] := by
  induction segments with
  | nil => exact absurd rfl h
  | cons segment others ih =>
    by_cases hothers : others = []
    · rw [hothers]
      rfl
    · rw [List.cons_append, join_cons _ (by simp), join_cons _ hothers, ih hothers,
        List.append_assoc, List.cons_append]

/-- Text behind the last segment is text behind the whole. -/
theorem join_concat_append (segments : List (List Char)) (last tail : List Char) :
    join (segments ++ [last ++ tail]) = join (segments ++ [last]) ++ tail := by
  induction segments with
  | nil => rfl
  | cons segment others ih =>
    rw [List.cons_append, List.cons_append, join_cons _ (by simp), join_cons _ (by simp), ih,
      List.append_assoc, List.cons_append]

/-- Leaving out empty segments at the end takes the separators from the end. -/
theorem join_trim (h : ∀ segment ∈ segments, separator ∉ segment) :
    join (trim segments) = (join segments).rdropWhile (· == separator) := by
  induction segments using List.reverseRecOn with
  | nil => rfl
  | append_singleton front last ih =>
    rw [List.forall_mem_append, List.forall_mem_singleton] at h
    rcases List.eq_nil_or_concat' last with rfl | ⟨text, c, rfl⟩
    · rw [trim_concat_nil]
      by_cases hfront : front = []
      · rw [hfront]
        rfl
      · rw [ih h.1, join_concat_nil hfront,
          List.rdropWhile_concat_pos (· == separator) _ _ (beq_self_eq_true separator)]
    · have hc : ¬ (c == separator) = true := by
        rw [beq_iff_eq]
        rintro rfl
        exact h.2 (by simp)
      rw [trim_concat (by simp), join_concat_append,
        List.rdropWhile_concat_neg (· == separator) _ _ hc]

/-- The text of the segments that count is the expression without the separators at
its end. -/
theorem join_significant (expression : List Char) :
    join (significant expression) = expression.rdropWhile (· == separator) := by
  rw [significant, join_trim fun _ => not_mem_of_mem_split, join_split]

/-! ### Segments of an expression -/

/-- Segments that an expression can have: none of them can be cut, and the last one
is not empty. -/
structure Tidy (segments : List (List Char)) : Prop where
  whole : ∀ segment ∈ segments, separator ∉ segment
  last_ne : segments.getLast? ≠ some []

theorem tidy_significant (expression : List Char) : Tidy (significant expression) where
  whole _ := not_mem_of_mem_significant
  last_ne := trim_eq_self_iff.mp (trim_trim (split expression))

/-- Tidy segments are those of the expression that they make. -/
theorem Tidy.significant_join (h : Tidy segments) : significant (join segments) = segments := by
  by_cases hne : segments = []
  · rw [hne]
    rfl
  · rw [significant, split_join hne h.whole, trim_eq_self_iff.mpr h.last_ne]

theorem Tidy.tail {segment : List Char} (h : Tidy (segment :: segments)) : Tidy segments where
  whole other hmem := h.whole other (List.mem_cons_of_mem segment hmem)
  last_ne hlast := h.last_ne (by rw [List.getLast?_cons, hlast, Option.getD_some])

theorem Tidy.ne_nil {segment : List Char} (h : Tidy [segment]) : segment ≠ [] := by
  rintro rfl
  exact h.last_ne rfl

/-- All segments of a text count, unless there is a separator at its end. -/
theorem significant_eq_split {text : List Char} (hne : text ≠ [])
    (hlast : text.getLast? ≠ some separator) : significant text = split text := by
  have hjoin : join (significant text) = text := by
    rw [join_significant, List.rdropWhile_eq_self_iff]
    intro hne hseparator
    exact hlast (by rw [List.getLast?_eq_some_getLast hne, beq_iff_eq.mp hseparator])
  have hsignificant : significant text ≠ [] := by
    intro hnil
    rw [hnil, join_nil] at hjoin
    exact hne hjoin.symm
  calc significant text = split (join (significant text)) :=
        (split_join hsignificant fun _ => not_mem_of_mem_significant).symm
    _ = split text := by rw [hjoin]

theorem ne_of_isPlaceholder {first second : List Char} (hfirst : isPlaceholder first = true)
    (hsecond : isPlaceholder second = false) : first ≠ second := by
  rintro rfl
  rw [hfirst] at hsecond
  cases hsecond

/-- Tidy segments stay tidy when a placeholder takes the place of their placeholders. -/
theorem Tidy.replaced (h : Tidy segments) (hfiller : isPlaceholder filler = true)
    (hwhole : separator ∉ filler) : Tidy (replaced filler segments) where
  whole segment hmem := by
    obtain ⟨origin, horigin, rfl⟩ := List.mem_map.mp hmem
    split
    · exact hwhole
    · exact h.whole origin horigin
  last_ne := by
    rw [Segment.replaced, List.getLast?_map, Ne, Option.map_eq_some_iff]
    rintro ⟨last, hlast, hempty⟩
    split at hempty
    · exact ne_of_isPlaceholder hfiller rfl hempty
    · exact h.last_ne (hempty ▸ hlast)

/-! ### The same, save for names -/

/-- Whether two segments are equal, or are both placeholders. -/
def SameShape (first second : List Char) : Prop :=
  first = second ∨ isPlaceholder first = true ∧ isPlaceholder second = true

instance : DecidableRel SameShape := fun _ _ => inferInstanceAs (Decidable (_ ∨ _))

/-- Under one name for all placeholders, segments of the same shape are equal. -/
theorem sameShape_iff (hfiller : isPlaceholder filler = true) {first second : List Char} :
    SameShape first second ↔
      (if isPlaceholder first then filler else first) =
        if isPlaceholder second then filler else second := by
  rw [SameShape]
  cases hfirst : isPlaceholder first with
  | true =>
    cases hsecond : isPlaceholder second with
    | true => simp
    | false =>
      simp [ne_of_isPlaceholder hfirst hsecond, ne_of_isPlaceholder hfiller hsecond]
  | false =>
    cases hsecond : isPlaceholder second with
    | true =>
      simp [(ne_of_isPlaceholder hsecond hfirst).symm, (ne_of_isPlaceholder hfiller hfirst).symm]
    | false => simp

theorem forall₂_sameShape_iff (hfiller : isPlaceholder filler = true) :
    List.Forall₂ SameShape first second ↔ replaced filler first = replaced filler second := by
  rw [replaced, replaced, ← List.forall₂_eq_eq_eq, List.forall₂_map_left_iff,
    List.forall₂_map_right_iff]
  simp only [← sameShape_iff hfiller]

/-- Replacing placeholders by placeholders does not change shapes. -/
theorem forall₂_sameShape_replaced (hfiller : isPlaceholder filler = true) :
    List.Forall₂ SameShape (replaced filler segments) segments := by
  rw [replaced, List.forall₂_map_left_iff, List.forall₂_same]
  intro segment _
  by_cases hplace : isPlaceholder segment = true
  · exact Or.inr ⟨by rwa [if_pos hplace], hplace⟩
  · exact Or.inl (if_neg hplace)

end Segment

namespace Token

variable {first second : List (List Char)} {filler : List Char}

/-! ### From tokens to segments -/

/-- Tokens that are filled with a placeholder have the segments of the expression,
with this placeholder for all. -/
theorem significant_fill (hfiller : Segment.isPlaceholder filler = true)
    (hwhole : separator ∉ filler) (expression : List Char) :
    Segment.significant (fill filler (ofExpression expression)) =
      Segment.replaced filler (Segment.significant expression) := by
  rw [ofExpression, fill_ofSegments, List.nil_append,
    ((Segment.tidy_significant expression).replaced hfiller hwhole).significant_join]

/-- The tokens do not depend on the names of placeholders. -/
theorem ofSegments_congr (h : List.Forall₂ Segment.SameShape first second) (text : List Char) :
    ofSegments text first = ofSegments text second := by
  induction h generalizing text with
  | nil => rfl
  | @cons segment segment' others others' hhead hothers ih =>
    have hgap : gap others = gap others' := by
      cases hothers with
      | nil => rfl
      | cons _ _ => rfl
    rw [ofSegments, ofSegments, hgap]
    rcases hhead with rfl | ⟨hsegment, hsegment'⟩
    · simp only [ih]
    · rw [if_pos hsegment, if_pos hsegment', ih]

/-- **Tokens tell the shape of an expression**, and nothing else. -/
theorem ofExpression_eq_iff {expression other : List Char} :
    ofExpression expression = ofExpression other ↔
      List.Forall₂ Segment.SameShape (Segment.significant expression)
        (Segment.significant other) := by
  constructor
  · intro h
    have hhole : Segment.isPlaceholder ['{', '}'] = true := by decide
    rw [Segment.forall₂_sameShape_iff hhole, ← significant_fill hhole (by decide),
      ← significant_fill hhole (by decide), h]
  · intro h
    exact ofSegments_congr h []

/-! ### Putting the names back -/

/-- The text of the tokens with the given segments, in order, in place of the
wildcards, if there are as many segments as wildcards. -/
def restore? : List (List Char) → List Token → Option (List Char)
  | [], [] => some []
  | _ :: _, [] => none
  | names, .literal text :: tokens => (restore? names tokens).map (text ++ ·)
  | [], .wildcard :: _ => none
  | name :: names, .wildcard :: tokens => (restore? names tokens).map (name ++ ·)

theorem restore?_prepend (names : List (List Char)) (text : List Char) (tokens : List Token) :
    restore? names (prepend text tokens) = (restore? names tokens).map (text ++ ·) := by
  cases text with
  | nil => simp
  | cons c text => cases names <;> rfl

/-- With the placeholders in their places, the tokens have the text of the segments. -/
theorem restore?_ofSegments (text : List Char) (segments : List (List Char)) :
    restore? (segments.filter Segment.isPlaceholder) (ofSegments text segments) =
      some (text ++ Segment.join segments) := by
  induction segments generalizing text with
  | nil => rw [ofSegments, restore?_prepend]; rfl
  | cons segment others ih =>
    rw [ofSegments, Segment.join_cons_eq_gap]
    by_cases hplace : Segment.isPlaceholder segment = true
    · rw [if_pos hplace, List.filter_cons_of_pos hplace, restore?_prepend, restore?, ih]
      rfl
    · rw [if_neg hplace, List.filter_cons_of_neg hplace, ih]
      simp only [List.append_assoc]

end Token

namespace Pattern

/-- **What is lost in compilation**: the names of placeholders, and the separators at
the end.

* Two expressions have the same tokens exactly if they have equally many segments,
  which are equal or both placeholders, one by one.
* With its placeholders put back for the wildcards, in order, the tokens of an
  expression have the text of the expression without the separators at its end.
* A substitute that is made with a placeholder has the tokens of the expression. -/
theorem compile_keeps_shape :
    (∀ replacement replacement' expression expression' : List Char,
      (compile replacement expression).tokens = (compile replacement' expression').tokens ↔
        List.Forall₂ Segment.SameShape (Segment.significant expression)
          (Segment.significant expression')) ∧
    (∀ replacement expression : List Char,
      Token.restore? ((Segment.significant expression).filter Segment.isPlaceholder)
          (compile replacement expression).tokens =
        some (expression.rdropWhile (· == separator))) ∧
    ∀ filler expression : List Char, separator ∉ filler → Segment.isPlaceholder filler = true →
      ∀ replacement, (compile replacement (compile filler expression).substitute).tokens =
        (compile filler expression).tokens := by
  refine ⟨fun _ _ _ _ => Token.ofExpression_eq_iff, ?_, ?_⟩
  · intro replacement expression
    rw [compile_tokens, Token.ofExpression, Token.restore?_ofSegments, List.nil_append,
      Segment.join_significant]
  · intro filler expression hwhole hfiller replacement
    rw [compile_tokens, compile_tokens, compile_substitute, Token.ofExpression_eq_iff,
      Token.significant_fill hfiller hwhole]
    exact Segment.forall₂_sameShape_replaced hfiller

/-- Empty segments, a stray brace and several separators at the end; and a placeholder
with braces inside. -/
theorem compile_keeps_shape_braces :
    let expression := "//a/{b}//c\x7b/{d}//".toList
    let filler := "{x}{y}".toList
    (compile ['X'] expression).tokens = (compile ['Y'] "//a/{}//c\x7b/{}".toList).tokens ∧
      Token.restore? ["{b}".toList, "{d}".toList] (compile ['X'] expression).tokens =
        some "//a/{b}//c\x7b/{d}".toList ∧
      separator ∉ filler ∧ Segment.isPlaceholder filler = true ∧
      (compile ['X'] (compile filler expression).substitute).tokens =
        (compile filler expression).tokens := by
  intro expression filler
  obtain ⟨hsame, hrestore, hagain⟩ := compile_keeps_shape
  have hfiller : Segment.isPlaceholder filler = true := by decide
  have hwhole : separator ∉ filler := by decide
  refine ⟨(hsame _ _ _ _).mpr (by decide), ?_, hwhole, hfiller, hagain _ _ hwhole hfiller _⟩
  exact (hrestore ['X'] expression).trans (by decide)

end Pattern

end PathVeil
