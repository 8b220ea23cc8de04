import PathVeil.Segment

/-!
# PathVeil.Proofs.Segments

The laws of cutting a text at its separators. A text either has no separator,
and is its own only segment, or it splits at its first one (`split_cases`).
Every proof about the segments of a path goes through these two cases.
-/

namespace PathVeil.Segment

/-! ### The two shapes of a text -/

/-- A character that is no separator joins the first segment. -/
theorem split_cons_of_ne {c : Char} (hc : c ≠ separator) {text first : List Char}
    {others : List (List Char)} (h : split text = first :: others) :
    split (c :: text) = (c :: first) :: others := by
  rw [split, if_neg hc, h]

/-- A text without separator is its own only segment. -/
theorem split_of_not_mem {text : List Char} (h : separator ∉ text) : split text = [text] := by
  induction text with
  | nil => rfl
  | cons c text ih =>
    rw [List.mem_cons, not_or] at h
    exact split_cons_of_ne (Ne.symm h.1) (ih h.2)

/-- A separator cuts a text wherever it stands. -/
theorem split_append_cons (front back : List Char) :
    split (front ++ separator :: back) = split front ++ split back := by
  induction front with
  | nil => simp [split]
  | cons c front ih =>
    rw [List.cons_append]
    by_cases hc : c = separator
    · rw [split, if_pos hc, ih, split, if_pos hc, List.cons_append]
    · obtain ⟨first, others, hsplit⟩ := List.exists_cons_of_ne_nil (split_ne_nil front)
      rw [hsplit, List.cons_append] at ih
      rw [split_cons_of_ne hc ih, split_cons_of_ne hc hsplit, List.cons_append]

/-- The first separator ends the first segment. -/
theorem split_append_separator {first : List Char} (h : separator ∉ first) (rest : List Char) :
    split (first ++ separator :: rest) = first :: split rest := by
  rw [split_append_cons, split_of_not_mem h, List.singleton_append]

/-- A text with a separator has a first one. -/
theorem exists_first_separator {text : List Char} (h : separator ∈ text) :
    ∃ first rest, text = first ++ separator :: rest ∧ separator ∉ first := by
  induction text with
  | nil => cases h
  | cons c text ih =>
    by_cases hc : c = separator
    · exact ⟨[], text, by rw [hc, List.nil_append], List.not_mem_nil⟩
    · obtain ⟨first, rest, htext, hfirst⟩ := ih ((List.mem_cons.mp h).resolve_left (Ne.symm hc))
      refine ⟨c :: first, rest, by rw [htext, List.cons_append], ?_⟩
      rw [List.mem_cons, not_or]
      exact ⟨Ne.symm hc, hfirst⟩

/-- **Inversion of `split`.** Either there is nothing to cut, or the text is cut
at its first separator. -/
theorem split_cases (text : List Char) :
    (separator ∉ text ∧ split text = [text]) ∨
      ∃ first rest, text = first ++ separator :: rest ∧ separator ∉ first
        ∧ split text = first :: split rest := by
  by_cases h : separator ∈ text
  · obtain ⟨first, rest, rfl, hfirst⟩ := exists_first_separator h
    exact Or.inr ⟨first, rest, rfl, hfirst, split_append_separator hfirst rest⟩
  · exact Or.inl ⟨h, split_of_not_mem h⟩

/-! ### What segments are made of -/

/-- No segment holds a separator. -/
theorem not_mem_of_mem_split {text segment : List Char} (h : segment ∈ split text) :
    separator ∉ segment := by
  induction hn : text.length using Nat.strongRecOn generalizing text with
  | ind n ih =>
    rcases split_cases text with ⟨htext, hsplit⟩ | ⟨first, rest, rfl, hfirst, hsplit⟩
    · rw [hsplit, List.mem_singleton] at h
      exact h ▸ htext
    · rw [hsplit, List.mem_cons] at h
      rcases h with rfl | h
      · exact hfirst
      · refine ih rest.length ?_ h rfl
        rw [← hn, List.length_append, List.length_cons]
        omega

/-- Trimming only leaves segments out. -/
theorem mem_of_mem_trim {segments : List (List Char)} {segment : List Char}
    (h : segment ∈ trim segments) : segment ∈ segments := by
  rw [trim, List.mem_reverse] at h
  exact List.mem_reverse.mp ((List.dropWhile_suffix _).subset h)

theorem not_mem_of_mem_significant {expression segment : List Char}
    (h : segment ∈ significant expression) : separator ∉ segment :=
  not_mem_of_mem_split (mem_of_mem_trim h)

/-! ### Joining -/

@[simp] theorem join_nil : join [] = [] := rfl

@[simp] theorem join_singleton (segment : List Char) : join [segment] = segment := rfl

theorem join_cons {others : List (List Char)} (segment : List Char) (h : others ≠ []) :
    join (segment :: others) = segment ++ separator :: join others := by
  cases others with
  | nil => exact absurd rfl h
  | cons second others => rfl

/-- Text in front of the first segment is text in front of the whole. -/
theorem join_append_cons (front segment : List Char) (others : List (List Char)) :
    join ((front ++ segment) :: others) = front ++ join (segment :: others) := by
  cases others with
  | nil => rfl
  | cons second others => simp [join]

end PathVeil.Segment
