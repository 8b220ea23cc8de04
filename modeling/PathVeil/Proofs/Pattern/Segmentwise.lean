import PathVeil.Proofs.Pattern.Remainder
import PathVeil.Proofs.Segments

/-!
# PathVeil.Proofs.Pattern.Segmentwise

Matching, segment by segment. The scan never sees segments: it compares merged
runs of literal text at a cursor and looks for the next separator. This module
describes the same matching in the way users think of it, as a walk along the
segments of the expression and of the path (`Segment.walk`), and proves that
the two agree on every expression and every path (`Pattern.find_compile_eq_walk`).

## Proof shape

The walk is first reduced to what it leaves of the path, `Segment.leftover?`,
which has no positions in it. The tokens are then related to the leftover by
one induction over the segments of the expression
(`Token.remainder?_ofSegments`). Its invariant is about the literal text that
the tokenizer still holds open: the tokens match a path exactly when the path
begins with the open text and the segments still to come match what follows it.
-/

namespace PathVeil

namespace Segment

/-! ### The walk -/

/-- The byte at which a segment of the path begins: each segment in front of it
takes its own bytes and one for the separator. -/
def startOf (found : List (List Char)) (i : Nat) : Nat :=
  (found.take i).foldl (fun start segment => start + (byteSize segment + 1)) 0

/-- The reference matcher: compares the wanted segments, one after another, with
the segments of a path from number `i` on.

* A placeholder takes any segment. If it is the last wanted segment, or stands
  at the last segment of the path, it takes all the rest.
* The last wanted segment, if it is no placeholder, has to begin the segment it
  meets; the match stops behind it.
* Every other wanted segment has to be met exactly, with more of the path to come. -/
def walk (found : List (List Char)) (i : Nat) : List (List Char) → Outcome
  | [] => if (join found).isEmpty then .full else .leading 0
  | want :: wanted =>
    match found[i]? with
    | none => .noMatch
    | some segment =>
      if isPlaceholder want then
        if wanted.isEmpty || i + 1 == found.length then .full else walk found (i + 1) wanted
      else if wanted.isEmpty then
        if want.isPrefixOf segment then
          let stop := startOf found i + byteSize want
          if stop = byteSize (join found) then .full else .leading stop
        else .noMatch
      else if segment = want ∧ i + 1 < found.length then walk found (i + 1) wanted
      else .noMatch

/-- What the walk leaves of a path, if it matches. -/
def leftover? : (wanted found : List (List Char)) → Option Path
  | [], found => some (join found)
  | _ :: _, [] => none
  | want :: wanted, segment :: found =>
    if isPlaceholder want then
      if wanted.isEmpty || found.isEmpty then some [] else leftover? wanted found
    else if wanted.isEmpty then
      (want.isPrefixOf? segment).map fun rest => join (rest :: found)
    else if segment = want ∧ found ≠ [] then leftover? wanted found
    else none

/-! ### Positions of segments -/

theorem startOf_succ {found : List (List Char)} {i : Nat} (h : i < found.length) :
    startOf found (i + 1) = startOf found i + (byteSize found[i] + 1) := by
  rw [startOf, startOf, List.take_succ_eq_append_getElem h, List.foldl_append]
  rfl

/-- The bytes in front of a segment, and those from it on, make up the path. -/
theorem byteSize_join {found : List (List Char)} {i : Nat} (h : i < found.length) :
    byteSize (join found) = startOf found i + byteSize (join (found.drop i)) := by
  induction i with
  | zero => simp [startOf]
  | succ i ih =>
    have hi : i < found.length := Nat.lt_of_succ_lt h
    have hrest : found.drop (i + 1) ≠ [] := by
      rw [Ne, List.drop_eq_nil_iff]
      omega
    rw [ih hi, List.drop_eq_getElem_cons hi, join_cons _ hrest, byteSize_append, byteSize_cons,
      startOf_succ hi, show separator.utf8Size = 1 by decide]
    omega

/-! ### The walk and its leftover -/

/-- The byte behind the last wanted segment, if it begins the segment it meets,
is the one at which a match that leaves the rest of the path stops. -/
theorem stop_eq_ofRemainder {found : List (List Char)} {i : Nat} {segment want rest : List Char}
    (h : found.drop i = segment :: found.drop (i + 1)) (hi : i < found.length)
    (hrest : segment = want ++ rest) :
    (if startOf found i + byteSize want = byteSize (join found) then Outcome.full
      else .leading (startOf found i + byteSize want)) =
      .ofRemainder (byteSize (join found)) (some (join (rest :: found.drop (i + 1)))) := by
  have hsize : byteSize (join found) = startOf found i + byteSize want
      + byteSize (join (rest :: found.drop (i + 1))) := by
    rw [byteSize_join hi, h, hrest, join_append_cons, byteSize_append]
    omega
  by_cases hnil : join (rest :: found.drop (i + 1)) = []
  · rw [hnil, byteSize_nil, Nat.add_zero] at hsize
    rw [if_pos hsize.symm, hnil]
    rfl
  · have hpos : byteSize (join (rest :: found.drop (i + 1))) ≠ 0 :=
      fun hzero => hnil (byteSize_eq_zero_iff.mp hzero)
    rw [if_neg (by omega), Outcome.ofRemainder_some hnil, hsize, Nat.add_sub_cancel]

/-- The last wanted segment, if it is no placeholder. -/
theorem walk_last {found : List (List Char)} {i : Nat} {segment : List Char} (want : List Char)
    (h : found.drop i = segment :: found.drop (i + 1)) (hi : i < found.length) :
    (if want.isPrefixOf segment then
        if startOf found i + byteSize want = byteSize (join found) then Outcome.full
        else .leading (startOf found i + byteSize want)
      else .noMatch) =
      .ofRemainder (byteSize (join found))
        ((want.isPrefixOf? segment).map fun rest => join (rest :: found.drop (i + 1))) := by
  cases hrest : want.isPrefixOf? segment with
  | none =>
    have hprefix : ¬ want.isPrefixOf segment := by
      intro hprefix
      obtain ⟨rest, hsegment⟩ := List.isPrefixOf_iff_prefix.mp hprefix
      rw [Cursor.isPrefixOf?_eq_some_iff.mpr hsegment.symm] at hrest
      cases hrest
    rw [if_neg hprefix]
    rfl
  | some rest =>
    have hsegment := Cursor.isPrefixOf?_eq_some_iff.mp hrest
    rw [if_pos (List.isPrefixOf_iff_prefix.mpr ⟨rest, hsegment.symm⟩)]
    exact stop_eq_ofRemainder h hi hsegment

/-- The outcome of the walk is known from its leftover alone. -/
theorem walk_eq_ofRemainder {wanted found : List (List Char)} {i : Nat}
    (hwanted : wanted ≠ []) (hi : i < found.length) :
    walk found i wanted =
      .ofRemainder (byteSize (join found)) (leftover? wanted (found.drop i)) := by
  induction wanted generalizing i with
  | nil => exact absurd rfl hwanted
  | cons want wanted ih =>
    have hdrop := List.drop_eq_getElem_cons hi
    have hlast : found.drop (i + 1) = [] ↔ i + 1 = found.length := by
      rw [List.drop_eq_nil_iff]
      omega
    rw [walk, List.getElem?_eq_getElem hi, hdrop, leftover?]
    dsimp only
    -- Both sides ask the same questions in the same order.
    split
    case isTrue hplace =>
      by_cases hend : wanted = [] ∨ i + 1 = found.length
      · rw [if_pos (by simpa using hend), if_pos (by simpa [hlast] using hend)]
        rfl
      · rw [not_or] at hend
        rw [if_neg (by simpa using hend), if_neg (by simpa [hlast] using hend)]
        exact ih hend.1 (by omega)
    case isFalse hplace =>
      split
      case isTrue hempty => exact walk_last want hdrop hi
      case isFalse hmore =>
        by_cases hmeet : found[i] = want ∧ i + 1 < found.length
        · have hne : found.drop (i + 1) ≠ [] := fun h => Nat.ne_of_lt hmeet.2 (hlast.mp h)
          rw [if_pos hmeet, if_pos ⟨hmeet.1, hne⟩]
          exact ih (by simpa using hmore) hmeet.2
        · rw [if_neg hmeet, if_neg]
          · rfl
          · rintro ⟨heq, hne⟩
            exact hmeet ⟨heq, by have := mt hlast.mpr hne; omega⟩

/-! ### Prefixes that end at a segment's end -/

theorem isPrefixOf?_append (first second path : List Char) :
    (first ++ second).isPrefixOf? path =
      (first.isPrefixOf? path).bind (second.isPrefixOf? ·) := by
  induction first generalizing path with
  | nil => rfl
  | cons c first ih =>
    cases path with
    | nil => rfl
    | cons d path =>
      by_cases h : c = d
      · simp [h, ih]
      · simp [h]

/-- A text without separator begins a path exactly when it begins the first
segment. -/
theorem isPrefixOf?_first {want : List Char} (h : separator ∉ want) (first rest : List Char) :
    want.isPrefixOf? (first ++ separator :: rest) =
      (want.isPrefixOf? first).map (· ++ separator :: rest) := by
  induction want generalizing first with
  | nil => rfl
  | cons c want ih =>
    rw [List.mem_cons, not_or] at h
    cases first with
    | nil => simp [Ne.symm h.1]
    | cons d first =>
      by_cases hd : c = d
      · simp [hd, ih h.2]
      · simp [hd]

/-- A segment with its separator begins a path exactly when it is the first
segment. -/
theorem isPrefixOf?_first_separator {want first : List Char} (hwant : separator ∉ want)
    (hfirst : separator ∉ first) (rest : List Char) :
    (want ++ [separator]).isPrefixOf? (first ++ separator :: rest) =
      if first = want then some rest else none := by
  by_cases heq : first = want
  · rw [if_pos heq, heq]
    exact Cursor.isPrefixOf?_eq_some_iff.mpr (by simp)
  · rw [if_neg heq, Option.eq_none_iff_forall_ne_some]
    intro tail htail
    rw [Cursor.isPrefixOf?_eq_some_iff, List.append_assoc, List.singleton_append] at htail
    have hsplit := congrArg split htail
    rw [split_append_separator hfirst, split_append_separator hwant, List.cons.injEq] at hsplit
    exact heq hsplit.1

/-- Where there is no separator, nothing that ends in one can be a prefix. -/
theorem isPrefixOf?_separator_of_not_mem {path : List Char} (h : separator ∉ path)
    (want : List Char) : (want ++ [separator]).isPrefixOf? path = none := by
  rw [Option.eq_none_iff_forall_ne_some]
  intro tail htail
  rw [Cursor.isPrefixOf?_eq_some_iff] at htail
  exact h (by simp [htail])

/-! ### The leftover, one wanted segment at a time -/

@[simp] theorem leftover?_nil (found : List (List Char)) : leftover? [] found = some (join found) :=
  rfl

/-- A literal segment and the gap behind it are stripped from the path as one
piece of text. -/
theorem leftover?_literal {want : List Char} (hplace : isPlaceholder want = false)
    (hwant : separator ∉ want) (wanted : List (List Char)) (path : Path) :
    leftover? (want :: wanted) (split path) =
      ((want ++ Token.gap wanted).isPrefixOf? path).bind fun rest =>
        leftover? wanted (split rest) := by
  rcases split_cases path with ⟨hpath, hsplit⟩ | ⟨first, rest, rfl, hfirst, hsplit⟩
  · rw [hsplit, leftover?, if_neg (by simp [hplace])]
    cases wanted with
    | nil =>
      rw [List.isEmpty_nil, if_pos rfl]
      simp [Token.gap, join_split]
    | cons second wanted =>
      rw [if_neg (by simp), if_neg (by simp)]
      simp [Token.gap, isPrefixOf?_separator_of_not_mem hpath]
  · rw [hsplit, leftover?, if_neg (by simp [hplace])]
    cases wanted with
    | nil =>
      rw [List.isEmpty_nil, if_pos rfl]
      have hjoin (tail : List Char) : join (tail :: split rest) = tail ++ separator :: rest := by
        rw [join_cons _ (split_ne_nil rest), join_split]
      simp [Token.gap, isPrefixOf?_first hwant, join_split, hjoin]
    | cons second wanted =>
      rw [if_neg (by simp)]
      simp only [Token.gap, List.isEmpty_cons, Bool.false_eq_true, if_false,
        isPrefixOf?_first_separator hwant hfirst]
      by_cases heq : first = want
      · rw [if_pos ⟨heq, split_ne_nil rest⟩, if_pos heq]
        rfl
      · rw [if_neg (fun h => heq h.1), if_neg heq]
        rfl

end Segment

namespace Token

/-! ### The tokens and the segments -/

/-- Text that is still open when tokens begin is only ever extended. -/
theorem ofSegments_ne_nil {text : List Char} (h : text ≠ []) (segments : List (List Char)) :
    ofSegments text segments ≠ [] := by
  induction segments generalizing text with
  | nil => simp [ofSegments, prepend, h]
  | cons segment others ih =>
    unfold ofSegments
    split
    · simp [prepend, h]
    · exact ih (by simp [h])

/-- An empty literal may be left out: it is found everywhere. -/
theorem remainder?_prepend (text : List Char) (path : Path) (tokens : List Token) :
    remainder? path (prepend text tokens) =
      (text.isPrefixOf? path).bind (remainder? · tokens) := by
  cases text with
  | nil => rfl
  | cons c text => rfl

/-- A placeholder in front of segments whose tokens are understood already: it
takes the first segment of the path, or all of it. -/
theorem remainder?_placeholder {want : List Char} {wanted : List (List Char)}
    (hplace : Segment.isPlaceholder want = true)
    (ih : ∀ text path, remainder? path (ofSegments text wanted) =
      (text.isPrefixOf? path).bind fun rest => Segment.leftover? wanted (Segment.split rest))
    (path : Path) :
    remainder? path (.wildcard :: ofSegments (gap wanted) wanted) =
      Segment.leftover? (want :: wanted) (Segment.split path) := by
  rcases Segment.split_cases path with ⟨hpath, hsplit⟩ | ⟨first, rest, rfl, hfirst, hsplit⟩
  · rw [remainder?_wildcard_of_not_mem hpath, hsplit, Segment.leftover?, if_pos hplace,
      if_pos (by simp)]
  · rw [hsplit, Segment.leftover?, if_pos hplace]
    cases wanted with
    | nil => rfl
    | cons second wanted =>
      have htokens : ofSegments [separator] (second :: wanted) ≠ [] :=
        ofSegments_ne_nil (by simp) _
      rw [if_neg (by simp [Segment.split_ne_nil]), gap_of_ne_nil (List.cons_ne_nil second wanted),
        remainder?_wildcard_append hfirst rest htokens, ih]
      simp

/-- **The invariant of the tokenizer.** With `text` still open and `wanted` to
come, the tokens match a path that begins with `text` and goes on with segments
that match `wanted`, and leave the same of it. -/
theorem remainder?_ofSegments {wanted : List (List Char)}
    (hwanted : ∀ segment ∈ wanted, separator ∉ segment) (text : List Char) (path : Path) :
    remainder? path (ofSegments text wanted) =
      (text.isPrefixOf? path).bind fun rest => Segment.leftover? wanted (Segment.split rest) := by
  induction wanted generalizing text path with
  | nil =>
    rw [ofSegments, remainder?_prepend]
    simp [Segment.join_split]
  | cons want wanted ih =>
    have hmore : ∀ segment ∈ wanted, separator ∉ segment :=
      fun segment h => hwanted segment (List.mem_cons_of_mem _ h)
    unfold ofSegments
    cases hplace : Segment.isPlaceholder want with
    | false =>
      rw [if_neg Bool.false_ne_true, ih hmore, List.append_assoc, Segment.isPrefixOf?_append,
        Option.bind_assoc]
      congr 1
      funext rest
      exact (Segment.leftover?_literal hplace (hwanted want List.mem_cons_self) wanted rest).symm
    | true =>
      rw [if_pos rfl, remainder?_prepend]
      congr 1
      funext rest
      exact remainder?_placeholder hplace (ih hmore) rest

end Token

namespace Pattern

/-- What a pattern leaves of a path, segment by segment. -/
theorem remainder?_eq_leftover? (pattern : Pattern) (path : Path) :
    Token.remainder? path pattern.tokens =
      Segment.leftover? (Segment.significant pattern.expression) (Segment.split path) := by
  rw [pattern.tokens_eq, Token.ofExpression, Token.remainder?_ofSegments fun _ h =>
    Segment.not_mem_of_mem_significant h]
  rfl

/-- **The scan agrees with the walk.** On every path, the cursor that runs over
merged tokens finds what a comparison segment by segment finds, down to the byte
at which a partial match stops. -/
theorem find_compile_eq_walk (replacement expression : List Char) (path : Path) :
    (compile replacement expression).find path =
      Segment.walk (Segment.split path) 0 (Segment.significant expression) := by
  rw [find_eq_ofRemainder, remainder?_eq_leftover?, compile_expression]
  cases hwanted : Segment.significant expression with
  | nil =>
    rw [Segment.leftover?_nil, Segment.walk, Segment.join_split, Outcome.ofRemainder,
      Nat.sub_self]
  | cons want wanted =>
    rw [Segment.walk_eq_ofRemainder (List.cons_ne_nil _ _)
      (List.length_pos_iff.mpr (Segment.split_ne_nil path)), Segment.join_split, List.drop_zero]

example : Segment.walk (Segment.split "/a/1/b/c".toList) 0
    (Segment.significant "/a/{x}/b/".toList) = .leading 6 := by decide

end Pattern

end PathVeil
