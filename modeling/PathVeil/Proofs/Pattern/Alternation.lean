import Mathlib.Data.List.Chain
import PathVeil.Proofs.Pattern.Shape

/-!
# PathVeil.Proofs.Pattern.Alternation

The shape of compiled tokens. Literals and wildcards take turns, and the separator
between a literal and a wildcard belongs to the literal. So a wildcard that is not the
last token stops where the next literal begins, and a literal behind or in front of one
covers whole segments. No literal is empty, none holds a placeholder, and the last token
does not end with a separator.

This is all that can be said without knowing the expression: tokens of this shape, with
any placeholder filled in for the wildcards, make an expression whose tokens they are
(`Token.Shaped.ofExpression_fill`).

## Proof shape

`Token.IsOpen` is the invariant of the tokenizer. It joins the literal text that is still
open to the segments that are still to come: in front of a segment the open text is empty
or ends with a separator, and behind the last one it does not. Both a placeholder, which
begins a new text (`isOpen_gap`), and any other segment (`IsOpen.extend`) preserve it.

The way back goes token by token. The filler of a wildcard is cut off by the separators
around it, so the tokenizer meets it as a segment of its own
(`Shaped.ofSegments_split_fill`). In both directions the shape is read off the first token
and what stands behind it (`shaped_literal_cons_iff`, `shaped_wildcard_cons_iff`).
-/

namespace PathVeil

namespace Segment

variable {front back segment : List Char}

/-! ### Texts without placeholder -/

/-- Whether no segment of the text is a placeholder. -/
def Plain (text : List Char) : Prop := ∀ segment ∈ split text, isPlaceholder segment = false

instance : DecidablePred Plain := fun text =>
  inferInstanceAs (Decidable (∀ segment ∈ split text, isPlaceholder segment = false))

theorem plain_nil : Plain [] := by decide

theorem plain_append_cons : Plain (front ++ separator :: back) ↔ Plain front ∧ Plain back := by
  rw [Plain, split_append_cons, List.forall_mem_append]
  rfl

/-- A single segment is plain unless it is a placeholder. -/
theorem plain_iff_of_not_mem (h : separator ∉ segment) :
    Plain segment ↔ isPlaceholder segment = false := by
  rw [Plain, split_of_not_mem h, List.forall_mem_singleton]

/-! ### Counting placeholders -/

/-- The empty segments at the end are no placeholders. -/
theorem countP_isPlaceholder_trim (segments : List (List Char)) :
    (trim segments).countP isPlaceholder = segments.countP isPlaceholder := by
  induction segments using List.reverseRecOn with
  | nil => rfl
  | append_singleton front last ih =>
    by_cases hlast : last = []
    · rw [hlast, trim_concat_nil, ih, List.countP_append]
      exact (Nat.add_zero _).symm
    · rw [trim_concat hlast]

end Segment

namespace Token

variable {text segment filler : List Char} {segments others : List (List Char)}
  {token : Token} {tokens : List Token}

/-! ### The shape -/

/-- Two tokens that may be neighbours: a literal and a wildcard, of which the literal has
the separator between them. -/
def Adjoins : Token → Token → Prop
  | .literal text, .wildcard => text.getLast? = some separator
  | .wildcard, .literal text => text.head? = some separator
  | _, _ => False

instance : DecidableRel Adjoins
  | .literal _, .wildcard => inferInstanceAs (Decidable (_ = _))
  | .wildcard, .literal _ => inferInstanceAs (Decidable (_ = _))
  | .literal _, .literal _ => inferInstanceAs (Decidable False)
  | .wildcard, .wildcard => inferInstanceAs (Decidable False)

/-- The shape of compiled tokens. -/
structure Shaped (tokens : List Token) : Prop where
  /-- Literals and wildcards take turns, with a separator wherever they meet. -/
  adjoins : tokens.IsChain Adjoins
  /-- No literal is empty. -/
  literal_ne_nil : ∀ text, .literal text ∈ tokens → text ≠ []
  /-- No segment of a literal is a placeholder. -/
  plain : ∀ text, .literal text ∈ tokens → Segment.Plain text
  /-- A literal at the end does not end with a separator. -/
  last : ∀ text, tokens.getLast? = some (.literal text) → text.getLast? ≠ some separator

theorem shaped_nil : Shaped [] where
  adjoins := .nil
  literal_ne_nil _ hmem := absurd hmem List.not_mem_nil
  plain _ hmem := absurd hmem List.not_mem_nil
  last _ hlast := by cases hlast

/-- The shape, one token at a time. -/
theorem shaped_cons_iff :
    Shaped (token :: tokens) ↔
      (∀ next ∈ tokens.head?, Adjoins token next) ∧
      (∀ text, token = .literal text →
        text ≠ [] ∧ Segment.Plain text ∧ (tokens = [] → text.getLast? ≠ some separator)) ∧
      Shaped tokens := by
  constructor
  · intro h
    obtain ⟨hhead, hchain⟩ := List.isChain_cons.mp h.adjoins
    refine ⟨hhead, ?_, hchain, ?_, ?_, ?_⟩
    · rintro text rfl
      refine ⟨h.literal_ne_nil text List.mem_cons_self, h.plain text List.mem_cons_self, ?_⟩
      rintro rfl
      exact h.last text rfl
    · exact fun text hmem => h.literal_ne_nil text (List.mem_cons_of_mem _ hmem)
    · exact fun text hmem => h.plain text (List.mem_cons_of_mem _ hmem)
    · exact fun text hlast => h.last text (by rw [List.getLast?_cons, hlast, Option.getD_some])
  · rintro ⟨hhead, hliteral, h⟩
    refine ⟨List.isChain_cons.mpr ⟨hhead, h.adjoins⟩, ?_, ?_, ?_⟩
    · intro text hmem
      rcases List.mem_cons.mp hmem with heq | hmem
      · exact (hliteral text heq.symm).1
      · exact h.literal_ne_nil text hmem
    · intro text hmem
      rcases List.mem_cons.mp hmem with heq | hmem
      · exact (hliteral text heq.symm).2.1
      · exact h.plain text hmem
    · intro text hlast
      cases tokens with
      | nil =>
        rw [List.getLast?_singleton, Option.some.injEq] at hlast
        exact (hliteral text hlast).2.2 rfl
      | cons next more =>
        rw [List.getLast?_cons_cons] at hlast
        exact h.last text hlast

/-- A wildcard ends the tokens, or stands in front of a literal that begins with a
separator. -/
theorem shaped_wildcard_cons_iff :
    Shaped (.wildcard :: tokens) ↔
      (tokens = [] ∨ ∃ text more, tokens = .literal (separator :: text) :: more) ∧
      Shaped tokens := by
  rw [shaped_cons_iff, and_iff_right (fun _ heq => Token.noConfusion heq)]
  refine and_congr_left fun _ => ?_
  match tokens with
  | [] => simp
  | .wildcard :: more => simp [Adjoins]
  | .literal [] :: more => simp [Adjoins]
  | .literal (c :: text) :: more => simp [Adjoins]

/-- A literal ends the tokens, and then it ends with no separator, or it stands in front
of a wildcard, and then it ends with one. -/
theorem shaped_literal_cons_iff :
    Shaped (.literal text :: tokens) ↔
      text ≠ [] ∧ Segment.Plain text ∧
      (tokens = [] ∧ text.getLast? ≠ some separator ∨
        ∃ more, tokens = .wildcard :: more ∧ text.getLast? = some separator) ∧
      Shaped tokens := by
  rw [shaped_cons_iff]
  match tokens with
  | [] => simp [and_assoc]
  | .literal _ :: more => simp [Adjoins]
  | .wildcard :: more => simp [Adjoins, and_assoc, and_left_comm]

/-! ### From segments to tokens -/

/-- Text that is still open when tokens begin is how the first of them begins. -/
theorem ofSegments_cons (c : Char) (text : List Char) (segments : List (List Char)) :
    ∃ more tokens, ofSegments (c :: text) segments = .literal (c :: more) :: tokens := by
  induction segments generalizing text with
  | nil => exact ⟨text, [], rfl⟩
  | cons segment others ih =>
    rw [ofSegments]
    by_cases hplace : Segment.isPlaceholder segment = true
    · rw [if_pos hplace]
      exact ⟨text, _, rfl⟩
    · rw [if_neg hplace]
      exact ih (text ++ segment ++ gap others)

/-- Behind a placeholder the tokens go on with the separator, if there is one. -/
theorem ofSegments_gap (others : List (List Char)) :
    ofSegments (gap others) others = [] ∨
      ∃ text tokens, ofSegments (gap others) others = .literal (separator :: text) :: tokens := by
  cases others with
  | nil => exact Or.inl rfl
  | cons next others => exact Or.inr (ofSegments_cons separator [] (next :: others))

/-- The text that is open when these segments are still to come. No segment of it is a
placeholder. In front of a segment it is empty or ends with a separator, and behind the
last one it does not end with a separator. -/
structure IsOpen (text : List Char) (segments : List (List Char)) : Prop where
  plain : Segment.Plain text
  cut : segments ≠ [] → text ≠ [] → text.getLast? = some separator
  complete : segments = [] → text.getLast? ≠ some separator

/-- At the start nothing is open. -/
theorem isOpen_nil (segments : List (List Char)) : IsOpen [] segments where
  plain := Segment.plain_nil
  cut _ hne := absurd rfl hne
  complete _ hlast := by cases hlast

/-- Behind a placeholder a new text is open. -/
theorem isOpen_gap (others : List (List Char)) : IsOpen (gap others) others := by
  cases others with
  | nil => exact isOpen_nil []
  | cons next others =>
    refine ⟨?_, fun _ _ => rfl, fun hnil => absurd hnil (List.cons_ne_nil next others)⟩
    show Segment.Plain [separator]
    decide

/-- Any other segment extends the text that is open. -/
theorem IsOpen.extend (h : IsOpen text (segment :: others))
    (hsegments : Segment.Tidy (segment :: others))
    (hplace : Segment.isPlaceholder segment = false) :
    IsOpen (text ++ segment ++ gap others) others := by
  have hwhole : separator ∉ segment := hsegments.whole segment List.mem_cons_self
  have hsegment : Segment.Plain segment := (Segment.plain_iff_of_not_mem hwhole).mpr hplace
  -- The open text is cut off from the segment, so their segments do not mix.
  have hplain : Segment.Plain (text ++ segment) := by
    by_cases htext : text = []
    · rwa [htext, List.nil_append]
    · obtain ⟨front, rfl⟩ :=
        List.getLast?_eq_some_iff.mp (h.cut (List.cons_ne_nil segment others) htext)
      rw [List.append_assoc, List.singleton_append, Segment.plain_append_cons]
      exact ⟨(Segment.plain_append_cons.mp h.plain).1, hsegment⟩
  cases others with
  | nil =>
    rw [gap_nil, List.append_nil]
    refine ⟨hplain, fun hne => absurd rfl hne, ?_⟩
    intro _ hlast
    rw [List.getLast?_append_of_ne_nil _ hsegments.ne_nil] at hlast
    exact hwhole (List.mem_of_getLast? hlast)
  | cons next others =>
    rw [gap_of_ne_nil (List.cons_ne_nil next others)]
    refine ⟨Segment.plain_append_cons.mpr ⟨hplain, Segment.plain_nil⟩, ?_, ?_⟩
    · intro _ _
      exact List.getLast?_concat
    · intro hnil
      exact absurd hnil (List.cons_ne_nil next others)

/-- **The tokenizer makes the shape**, from tidy segments and any text that can be open
in front of them. -/
theorem shaped_ofSegments (hsegments : Segment.Tidy segments) (hopen : IsOpen text segments) :
    Shaped (ofSegments text segments) := by
  induction segments generalizing text with
  | nil =>
    rw [ofSegments]
    by_cases htext : text = []
    · rw [htext]
      exact shaped_nil
    · rw [prepend_of_ne_nil htext, shaped_literal_cons_iff]
      exact ⟨htext, hopen.plain, Or.inl ⟨rfl, hopen.complete rfl⟩, shaped_nil⟩
  | cons segment others ih =>
    rw [ofSegments]
    cases hplace : Segment.isPlaceholder segment with
    | true =>
      -- What is open is closed here, and the tokens behind the wildcard are those of a new text.
      rw [if_pos rfl]
      have hwildcard : Shaped (.wildcard :: ofSegments (gap others) others) :=
        shaped_wildcard_cons_iff.mpr
          ⟨ofSegments_gap others, ih hsegments.tail (isOpen_gap others)⟩
      by_cases htext : text = []
      · rw [htext]
        exact hwildcard
      · have hcut := hopen.cut (List.cons_ne_nil segment others) htext
        rw [prepend_of_ne_nil htext, shaped_literal_cons_iff]
        exact ⟨htext, hopen.plain, Or.inr ⟨_, rfl, hcut⟩, hwildcard⟩
    | false =>
      rw [if_neg Bool.false_ne_true]
      exact ih hsegments.tail (hopen.extend hsegments hplace)

theorem shaped_ofExpression (expression : List Char) : Shaped (ofExpression expression) :=
  shaped_ofSegments (Segment.tidy_significant expression) (isOpen_nil _)

/-! ### From tokens to segments -/

/-- Segments without placeholder are taken as one text. -/
theorem ofSegments_append (text : List Char) (hne : segments ≠ [])
    (hplace : ∀ segment ∈ segments, Segment.isPlaceholder segment = false)
    (more : List (List Char)) :
    ofSegments text (segments ++ more) =
      ofSegments (text ++ Segment.join segments ++ gap more) more := by
  induction segments generalizing text with
  | nil => exact absurd rfl hne
  | cons segment others ih =>
    rw [List.forall_mem_cons] at hplace
    rw [List.cons_append, ofSegments, if_neg (by rw [hplace.1]; exact Bool.false_ne_true)]
    by_cases hothers : others = []
    · rw [hothers, List.nil_append, Segment.join_singleton]
    · have happend : others ++ more ≠ [] := List.append_ne_nil_of_left_ne_nil hothers more
      rw [ih _ hothers hplace.2, Segment.join_cons _ hothers, gap_of_ne_nil happend]
      simp only [List.append_assoc, List.cons_append, List.nil_append]

/-- Plain text makes one literal. -/
theorem ofSegments_split (h : Segment.Plain text) :
    ofSegments [] (Segment.split text) = prepend text [] := by
  have happend := ofSegments_append [] (Segment.split_ne_nil text) h []
  rw [List.append_nil, List.nil_append, Segment.join_split] at happend
  rw [happend, gap_nil, List.append_nil, ofSegments]

/-- Plain text up to a separator is open when the next segment comes. -/
theorem ofSegments_split_append_cons (h : Segment.Plain text) (rest : List Char) :
    ofSegments [] (Segment.split (text ++ separator :: rest)) =
      ofSegments (text ++ [separator]) (Segment.split rest) := by
  rw [Segment.split_append_cons, ofSegments_append [] (Segment.split_ne_nil text) h,
    List.nil_append, Segment.join_split, gap_of_ne_nil (Segment.split_ne_nil rest)]

/-- A placeholder closes the text that is open. -/
theorem ofSegments_placeholder (text : List Char) (hplace : Segment.isPlaceholder segment = true)
    (others : List (List Char)) :
    ofSegments text (segment :: others) =
      prepend text (.wildcard :: ofSegments (gap others) others) := by
  rw [ofSegments, if_pos hplace]

/-- The filler of a wildcard is a segment of its own. -/
theorem Shaped.exists_split_fill (h : Shaped (.wildcard :: tokens)) (hwhole : separator ∉ filler) :
    ∃ others, Segment.split (fill filler (.wildcard :: tokens)) = filler :: others := by
  rw [fill_cons, Token.text]
  rcases (shaped_wildcard_cons_iff.mp h).1 with rfl | ⟨text, more, rfl⟩
  · exact ⟨[], by rw [fill_nil, List.append_nil, Segment.split_of_not_mem hwhole]⟩
  · exact ⟨_, Segment.split_append_separator hwhole (text ++ fill filler more)⟩

section Fill

variable (hfiller : Segment.isPlaceholder filler = true) (hwhole : separator ∉ filler)
include hfiller hwhole

/-- Behind a placeholder the tokens go on with the separator, as if it were the first of
the text. -/
theorem ofSegments_split_placeholder (rest : List Char) :
    ofSegments [] (Segment.split (filler ++ separator :: rest)) =
      .wildcard :: ofSegments [] (Segment.split (separator :: rest)) := by
  have hrest : ofSegments [] (Segment.split (separator :: rest)) =
      ofSegments [separator] (Segment.split rest) :=
    ofSegments_split_append_cons Segment.plain_nil rest
  rw [Segment.split_append_separator hwhole, ofSegments_placeholder [] hfiller, prepend_nil,
    gap_of_ne_nil (Segment.split_ne_nil rest), hrest]

/-- Tokens that are filled with a placeholder are found again. -/
theorem Shaped.ofSegments_split_fill (h : Shaped tokens) (hne : tokens ≠ []) :
    ofSegments [] (Segment.split (fill filler tokens)) = tokens := by
  induction tokens with
  | nil => exact absurd rfl hne
  | cons token tokens ih =>
    cases token with
    | wildcard =>
      obtain ⟨hnext, htokens⟩ := shaped_wildcard_cons_iff.mp h
      rw [fill_cons, Token.text]
      rcases hnext with rfl | ⟨text, more, rfl⟩
      · rw [fill_nil, List.append_nil, Segment.split_of_not_mem hwhole,
          ofSegments_placeholder [] hfiller]
        rfl
      · have hmore := ih htokens (List.cons_ne_nil _ more)
        rw [fill_cons, Token.text, List.cons_append] at hmore ⊢
        rw [ofSegments_split_placeholder hfiller hwhole, hmore]
    | literal text =>
      obtain ⟨hliteral, hplain, hnext, htokens⟩ := shaped_literal_cons_iff.mp h
      rw [fill_cons, Token.text]
      rcases hnext with ⟨rfl, -⟩ | ⟨more, rfl, hcut⟩
      · rw [fill_nil, List.append_nil, ofSegments_split hplain, prepend_of_ne_nil hliteral]
      · -- The text ends with a separator, so the filler behind it is a segment of its own.
        obtain ⟨front, rfl⟩ := List.getLast?_eq_some_iff.mp hcut
        obtain ⟨others, hsplit⟩ := htokens.exists_split_fill hwhole
        have hmore := ih htokens (List.cons_ne_nil _ more)
        rw [hsplit, ofSegments_placeholder [] hfiller, prepend_nil] at hmore
        rw [List.append_assoc, List.singleton_append,
          ofSegments_split_append_cons (Segment.plain_append_cons.mp hplain).1, hsplit,
          ofSegments_placeholder _ hfiller, hmore, prepend_of_ne_nil hliteral]

/-- The text of filled tokens does not end with a separator. -/
theorem Shaped.getLast?_fill (h : Shaped tokens) (hne : tokens ≠ []) :
    fill filler tokens ≠ [] ∧ (fill filler tokens).getLast? ≠ some separator := by
  obtain ⟨front, token, rfl⟩ := (List.eq_nil_or_concat' tokens).resolve_left hne
  have hlast : token.text filler ≠ [] ∧ (token.text filler).getLast? ≠ some separator := by
    cases token with
    | wildcard =>
      refine ⟨?_, fun hlast => hwhole (List.mem_of_getLast? hlast)⟩
      rintro rfl
      cases hfiller
    | literal text =>
      exact ⟨h.literal_ne_nil text (by simp), h.last text List.getLast?_concat⟩
  rw [fill, List.flatMap_append, List.flatMap_singleton, List.getLast?_append_of_ne_nil _ hlast.1]
  exact ⟨List.append_ne_nil_of_right_ne_nil _ hlast.1, hlast.2⟩

/-- **Every list of tokens of this shape is compiled from some expression**: the text of
the tokens, with a placeholder for each wildcard. -/
theorem Shaped.ofExpression_fill (h : Shaped tokens) :
    ofExpression (fill filler tokens) = tokens := by
  by_cases hne : tokens = []
  · rw [hne]
    rfl
  · obtain ⟨hfill, hlast⟩ := h.getLast?_fill hfiller hwhole hne
    rw [ofExpression, Segment.significant_eq_split hfill hlast,
      h.ofSegments_split_fill hfiller hwhole hne]

end Fill

/-! ### Counting wildcards -/

theorem count_wildcard_prepend (text : List Char) (tokens : List Token) :
    (prepend text tokens).count .wildcard = tokens.count .wildcard := by
  cases text with
  | nil => rfl
  | cons c text =>
    rw [prepend_of_ne_nil (List.cons_ne_nil c text), List.count_cons_of_ne Token.noConfusion]

theorem count_wildcard_ofSegments (text : List Char) (segments : List (List Char)) :
    (ofSegments text segments).count .wildcard = segments.countP Segment.isPlaceholder := by
  induction segments generalizing text with
  | nil => exact count_wildcard_prepend text []
  | cons segment others ih =>
    rw [ofSegments]
    by_cases hplace : Segment.isPlaceholder segment = true
    · rw [if_pos hplace, List.countP_cons_of_pos hplace, count_wildcard_prepend,
        List.count_cons_self, ih]
    · rw [if_neg hplace, List.countP_cons_of_neg hplace, ih]

/-- There is one wildcard for each placeholder. -/
theorem count_wildcard_ofExpression (expression : List Char) :
    (ofExpression expression).count .wildcard =
      (Segment.split expression).countP Segment.isPlaceholder := by
  rw [ofExpression, count_wildcard_ofSegments, Segment.significant,
    Segment.countP_isPlaceholder_trim]

end Token

namespace Pattern

/-- **The shape of compiled tokens, exactly.**

* The tokens of every expression have the shape, and one wildcard for each placeholder
  among the segments of the expression.
* Tokens of the shape, with any placeholder in place of the wildcards, make an expression
  whose tokens they are. -/
theorem compile_alternates (replacement : List Char) :
    (∀ expression : List Char,
      Token.Shaped (compile replacement expression).tokens ∧
      (compile replacement expression).tokens.count .wildcard =
        (Segment.split expression).countP Segment.isPlaceholder) ∧
    ∀ (tokens : List Token) (filler : List Char), Token.Shaped tokens →
      Segment.isPlaceholder filler = true → separator ∉ filler →
      (compile replacement (Token.fill filler tokens)).tokens = tokens := by
  constructor
  · intro expression
    exact ⟨Token.shaped_ofExpression expression, Token.count_wildcard_ofExpression expression⟩
  · intro tokens filler h hfiller hwhole
    exact h.ofExpression_fill hfiller hwhole

/-- A separator alone between two wildcards, empty segments on both sides of one, stray
braces, and a beginning without separator. -/
theorem compile_alternates_braces :
    let tokens : List Token := [.literal "\x7ba//".toList, .wildcard, .literal "/".toList,
      .wildcard, .literal "//b\x7d".toList]
    Token.Shaped tokens ∧ Segment.isPlaceholder "{id}".toList = true ∧
      separator ∉ "{id}".toList ∧
      (compile ['X'] (Token.fill "{id}".toList tokens)).tokens = tokens ∧
      tokens.count .wildcard =
        (Segment.split (Token.fill "{id}".toList tokens)).countP Segment.isPlaceholder := by
  intro tokens
  obtain ⟨hshape, hfill⟩ := compile_alternates ['X']
  have htokens : Token.Shaped tokens := by
    refine ⟨by decide, by simp [tokens], ?_, by simp [tokens, separator]⟩
    have hplain : Segment.Plain "\x7ba//".toList ∧ Segment.Plain "/".toList ∧
        Segment.Plain "//b\x7d".toList := by decide
    simpa [tokens] using hplain
  have hplace : Segment.isPlaceholder "{id}".toList = true := by decide
  have hwhole : separator ∉ "{id}".toList := by decide
  have hagain := hfill tokens "{id}".toList htokens hplace hwhole
  have hcount := (hshape (Token.fill "{id}".toList tokens)).2
  rw [hagain] at hcount
  exact ⟨htokens, hplace, hwhole, hagain, hcount⟩

end Pattern

end PathVeil
