import PathVeil.Proofs.Stream.Batch
import PathVeil.Proofs.Text.Decoding

/-!
# PathVeil.Proofs.Stream.Lines

The lines of a stream, one after the other. A stream is empty, or one line that is
not ended, or a line that is, with another stream behind it. `lineInduction` is
induction along these three. What can be said of the bytes of a whole stream is
carried to the paths on its lines: if the stream is valid, so are they
(`isValid_of_mem_lines`), and none of them has a line feed
(`lineFeed_not_mem_of_mem_paths`). Paths without line feeds can be written one on
each line and found there again (`lines_flatMap_writeLine`).
-/

namespace PathVeil.Stream

/-! ### Streams as lines -/

/-- Induction over the lines of a stream. -/
theorem lineInduction {motive : List UInt8 → Prop} (nil : motive [])
    (last : ∀ body, body ≠ [] → 10 ∉ body → motive body)
    (line : ∀ body rest, 10 ∉ body → motive rest → motive (body ++ 10 :: rest))
    (input : List UInt8) : motive input := by
  induction hn : input.length using Nat.strongRecOn generalizing input with
  | ind n ih =>
    by_cases hmem : 10 ∈ input
    · obtain ⟨body, rest, rfl, hbody⟩ := List.eq_append_cons_of_mem hmem
      refine line body rest hbody (ih rest.length ?_ rest rfl)
      rw [← hn, List.length_append, List.length_cons]
      omega
    · by_cases hempty : input = []
      · exact hempty ▸ nil
      · exact last input hempty hmem

/-! ### Taking ends off -/

section DropEnd

variable {b c : UInt8} {body : List UInt8}

theorem dropEnd_concat_self (b : UInt8) (body : List UInt8) : dropEnd b (body ++ [b]) = body := by
  rw [dropEnd, List.getLast?_concat, if_pos rfl, List.dropLast_concat]

theorem dropEnd_of_getLast?_ne (h : body.getLast? ≠ some b) : dropEnd b body = body :=
  if_neg h

theorem dropEnd_cons_cons (a : UInt8) : dropEnd b (a :: c :: body) = a :: dropEnd b (c :: body) := by
  rw [dropEnd, dropEnd, List.getLast?_cons_cons, List.dropLast_cons_cons]
  split <;> rfl

/-- A line that is ended, without its end. -/
theorem trimEnding_concat (body : List UInt8) : trimEnding (body ++ [10]) = dropEnd 13 body := by
  rw [trimEnding, dropEnd_concat_self]

/-- A line that is not ended may lose a carriage return. -/
theorem trimEnding_of_not_mem (h : 10 ∉ body) : trimEnding body = dropEnd 13 body := by
  have hlast : body.getLast? ≠ some 10 := fun hlast => h (List.mem_of_getLast? hlast)
  rw [trimEnding, dropEnd_of_getLast?_ne hlast]

theorem mem_of_mem_dropEnd (h : c ∈ dropEnd b body) : c ∈ body := by
  rw [dropEnd] at h
  split at h
  · exact List.dropLast_subset _ h
  · exact h

theorem isValid_dropEnd (h : Utf8.isValid body) : Utf8.isValid (dropEnd 13 body) := by
  by_cases hlast : body.getLast? = some 13
  · obtain ⟨front, rfl⟩ := List.getLast?_eq_some_iff.mp hlast
    rw [dropEnd_concat_self]
    exact ((Utf8.isValid_append_cons (by decide)).mp h).1
  · rwa [dropEnd_of_getLast?_ne hlast]

end DropEnd

/-! ### Lines of a stream -/

/-- A line without its end is what stands before a line feed, or before the end of
the stream, up to a carriage return. This is valid if the stream is. -/
theorem exists_body_of_mem_lines {input line : List UInt8} (hline : line ∈ lines input) :
    ∃ body, trimEnding line = dropEnd 13 body ∧ 10 ∉ body ∧
      (Utf8.isValid input → Utf8.isValid body) := by
  induction input using lineInduction with
  | nil => cases hline
  | last body hne hbody =>
    rw [lines_of_not_mem hbody hne, List.mem_singleton] at hline
    subst hline
    exact ⟨line, trimEnding_of_not_mem hbody, hbody, id⟩
  | line body rest hbody ih =>
    have hvalid := @Utf8.isValid_append_cons 10 (by decide) body rest
    rw [lines_append_lineFeed hbody, List.mem_cons] at hline
    rcases hline with rfl | hline
    · exact ⟨body, trimEnding_concat body, hbody, fun h => (hvalid.mp h).1⟩
    · obtain ⟨other, htrim, hother, hrest⟩ := ih hline
      exact ⟨other, htrim, hother, fun h => hrest (hvalid.mp h).2⟩

/-- The lines of a valid stream are valid. -/
theorem isValid_of_mem_lines {input line : List UInt8} (h : Utf8.isValid input)
    (hline : line ∈ lines input) : Utf8.isValid (trimEnding line) := by
  obtain ⟨body, htrim, -, hvalid⟩ := exists_body_of_mem_lines hline
  rw [htrim]
  exact isValid_dropEnd (hvalid h)

/-- The bytes of a line without its end are no line feeds. -/
theorem lineFeed_not_mem_trimEnding {input line : List UInt8} (hline : line ∈ lines input) :
    10 ∉ trimEnding line := by
  obtain ⟨body, htrim, hbody, -⟩ := exists_body_of_mem_lines hline
  rw [htrim]
  exact fun hmem => hbody (mem_of_mem_dropEnd hmem)

/-- No path that is read has a line feed. -/
theorem lineFeed_not_mem_of_mem_paths {input : List UInt8} {path : Path}
    (h : path ∈ paths input) : '\n' ∉ path := by
  obtain ⟨line, hline, rfl⟩ := List.mem_map.mp h
  intro hmem
  exact lineFeed_not_mem_trimEnding hline ((Utf8.mem_decodeLossy_iff (by decide)).mp hmem)

/-! ### Paths on lines -/

theorem lineFeed_not_mem_encode {path : Path} (h : '\n' ∉ path) : 10 ∉ Utf8.encode path :=
  fun hmem => h ((Utf8.mem_encode_iff (by decide)).mp hmem)

/-- Paths that are written on lines can be told apart. -/
theorem lines_flatMap_writeLine {paths : List Path} (h : ∀ path ∈ paths, '\n' ∉ path) :
    lines (paths.flatMap writeLine) = paths.map writeLine := by
  induction paths with
  | nil => rfl
  | cons path paths ih =>
    rw [List.forall_mem_cons] at h
    rw [List.flatMap_cons, writeLine, List.append_assoc, List.singleton_append,
      lines_append_lineFeed (lineFeed_not_mem_encode h.1), ih h.2]
    rfl

/-- There is one line feed for each of them. -/
theorem count_flatMap_writeLine {paths : List Path} (h : ∀ path ∈ paths, '\n' ∉ path) :
    (paths.flatMap writeLine).count 10 = paths.length := by
  induction paths with
  | nil => rfl
  | cons path paths ih =>
    rw [List.forall_mem_cons] at h
    rw [List.flatMap_cons, List.count_append, ih h.2, writeLine, List.count_append,
      List.count_eq_zero.mpr (lineFeed_not_mem_encode h.1), List.length_cons]
    simp [Nat.add_comm]

end PathVeil.Stream
