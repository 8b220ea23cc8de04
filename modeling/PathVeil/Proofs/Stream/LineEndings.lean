import PathVeil.Proofs.Stream.Lines

/-!
# PathVeil.Proofs.Stream.LineEndings

What becomes of a stream in which there is nothing to redact. The end of every
line is taken off, one byte after the other, and a line feed is put there in its
place. Taken together this is a conversion of line endings: a line feed is added
at the end of the stream if it is missing there, and then every carriage return
in front of a line feed goes (`Stream.output_of_unchanged`).

So a carriage return at the very end of a stream is lost too, although no line
feed follows it there (`Stream.output_lone_return`). This is the only difference
to a conversion of the stream alone, with the missing line feed added behind.

## Proof shape

`toLineFeeds_append_lineFeed` is the conversion of one line that is ended, and
`flatMap_lines` the conversion of a stream, line by line. That reading and writing
a line changes nothing is `Utf8.encode_decodeLossy`.
-/

namespace PathVeil.Stream

/-! ### Converting line endings -/

/-- Puts a line feed in the place of every carriage return with a line feed. -/
def toLineFeeds : List UInt8 → List UInt8
  | [] => []
  | [b] => [b]
  | b :: c :: bytes =>
    if b = 13 ∧ c = 10 then 10 :: toLineFeeds bytes else b :: toLineFeeds (c :: bytes)

/-- The line feed that is missing at the end of a stream, if one is. -/
def missingEnd (input : List UInt8) : List UInt8 :=
  if input = [] ∨ input.getLast? = some 10 then [] else [10]

/-- Of a line that is ended, the carriage return at its end goes. -/
theorem toLineFeeds_append_lineFeed {body : List UInt8} (h : 10 ∉ body) (rest : List UInt8) :
    toLineFeeds (body ++ 10 :: rest) = dropEnd 13 body ++ 10 :: toLineFeeds rest := by
  have hfeed : toLineFeeds (10 :: rest) = 10 :: toLineFeeds rest := by
    cases rest with
    | nil => rfl
    | cons c rest => rw [toLineFeeds, if_neg fun hboth => absurd hboth.1 (by decide)]
  induction body with
  | nil => exact hfeed
  | cons b body ih =>
    cases body with
    | nil =>
      rw [List.singleton_append, toLineFeeds]
      by_cases hb : b = 13
      · rw [if_pos ⟨hb, rfl⟩, hb]
        rfl
      · rw [if_neg (fun hboth => hb hboth.1), hfeed, dropEnd_of_getLast?_ne (by simpa using hb)]
        rfl
    | cons c body =>
      have hbody := List.not_mem_of_not_mem_cons h
      have hc : c ≠ 10 := (List.ne_of_not_mem_cons hbody).symm
      rw [List.cons_append, List.cons_append, toLineFeeds, if_neg (fun hboth => hc hboth.2),
        ← List.cons_append, ih hbody, dropEnd_cons_cons, List.cons_append]

/-- Putting a line feed behind a stream before or after the conversion makes a
difference exactly behind a carriage return. -/
theorem toLineFeeds_concat_eq_iff (bytes : List UInt8) :
    toLineFeeds (bytes ++ [10]) = toLineFeeds bytes ++ [10] ↔ bytes.getLast? ≠ some 13 := by
  fun_induction toLineFeeds bytes with
  | case1 => decide
  | case2 b =>
    by_cases hb : b = 13
    · simp [toLineFeeds, hb]
    · simp [toLineFeeds, hb]
  | case3 b c bytes hboth ih =>
    obtain ⟨rfl, rfl⟩ := hboth
    rw [List.cons_append, List.cons_append, toLineFeeds, if_pos ⟨rfl, rfl⟩, List.cons_append,
      List.cons_inj_right, ih]
    cases bytes with
    | nil => decide
    | cons d bytes => rw [List.getLast?_cons_cons, List.getLast?_cons_cons]
  | case4 b c bytes hnot ih =>
    have hstep : toLineFeeds (b :: c :: bytes ++ [10]) = b :: toLineFeeds (c :: bytes ++ [10]) := by
      rw [List.cons_append, List.cons_append, toLineFeeds, if_neg hnot]
    have hbehind : b :: toLineFeeds (c :: bytes) ++ [10] = b :: (toLineFeeds (c :: bytes) ++ [10]) :=
      List.cons_append
    rw [hstep, hbehind, List.cons_inj_right, ih, List.getLast?_cons_cons]

theorem missingEnd_append_cons (body rest : List UInt8) :
    missingEnd (body ++ 10 :: rest) = missingEnd rest := by
  cases rest with
  | nil => simp [missingEnd]
  | cons c rest => simp [missingEnd, List.getLast?_append, List.getLast?_cons_cons]

/-- The lines of a stream with their ends replaced, one after the other. -/
theorem flatMap_lines (input : List UInt8) :
    (lines input).flatMap (fun line => trimEnding line ++ [10]) =
      toLineFeeds (input ++ missingEnd input) := by
  induction input using lineInduction with
  | nil => rfl
  | last body hne hbody =>
    have hlast : body.getLast? ≠ some 10 := fun hlast => hbody (List.mem_of_getLast? hlast)
    rw [lines_of_not_mem hbody hne, List.flatMap_singleton, trimEnding_of_not_mem hbody,
      missingEnd, if_neg (by simp [hne, hlast]), toLineFeeds_append_lineFeed hbody, toLineFeeds]
  | line body rest hbody ih =>
    rw [lines_append_lineFeed hbody, List.flatMap_cons, trimEnding_concat, ih,
      missingEnd_append_cons]
    simp only [List.append_assoc, List.cons_append, List.nil_append]
    rw [toLineFeeds_append_lineFeed hbody]

/-! ### The main result -/

/-- **Where nothing is redacted, line endings are converted.** Let a stream be the
form of a text, and let the engine leave each of its paths as it is. What is
written is the stream with a line feed at its end, where it had none, and with a
line feed for every carriage return and line feed. To convert first and to add the
line feed then gives the same exactly if the stream does not end with a carriage
return. -/
theorem output_of_unchanged (engine : Engine) (reveal : Bool) (sourceId : String)
    (input : List UInt8) (hvalid : ∃ text, Utf8.encode text = input)
    (hsame : ∀ path ∈ paths input, engine.filter path = path) :
    let output := (filter engine reveal sourceId input).output
    output = toLineFeeds (input ++ missingEnd input) ∧
    (output = toLineFeeds input ++ missingEnd input ↔ input.getLast? ≠ some 13) := by
  intro output
  have houtput : output = toLineFeeds (input ++ missingEnd input) := by
    have hline (line : List UInt8) (hmem : line ∈ lines input) :
        writeLine (engine.filter (path line)) = trimEnding line ++ [10] := by
      rw [hsame (path line) (List.mem_map_of_mem hmem), writeLine, path,
        Utf8.encode_decodeLossy (isValid_of_mem_lines (Utf8.isValid_iff.mpr hvalid) hmem)]
    rw [← flatMap_lines, ← List.flatMap_congr hline]
    simp only [output]
    rw [output_filter, paths, List.flatMap_map]
  refine ⟨houtput, ?_⟩
  rw [houtput, missingEnd]
  split
  case isTrue hended =>
    have hlast : input.getLast? ≠ some 13 := by
      rcases hended with rfl | hlast
      · decide
      · simp [hlast]
    simp [hlast]
  case isFalse hopen => exact toLineFeeds_concat_eq_iff input

/-- Two carriage returns, an empty line, and one inside of the last line. -/
theorem output_of_unchanged_returns :
    let text := "/a\r\r\n\r\n/b\r/c".toList
    let input := Utf8.encode text
    (∃ text, Utf8.encode text = input) ∧
      (∀ path ∈ paths input, (⟨[], []⟩ : Engine).filter path = path) ∧
      (filter ⟨[], []⟩ false "" input).output = Utf8.encode "/a\r\n\n/b\r/c\n".toList := by
  intro text input
  have hsame : ∀ path ∈ paths input, (⟨[], []⟩ : Engine).filter path = path := fun _ _ => rfl
  obtain ⟨-, hconverted⟩ := output_of_unchanged ⟨[], []⟩ false "" input ⟨text, rfl⟩ hsame
  exact ⟨⟨text, rfl⟩, hsame, (hconverted.mpr (by decide)).trans (by decide)⟩

/-- A carriage return at the very end is no line ending, and is taken off all the
same. -/
theorem output_lone_return :
    let input := Utf8.encode "a\r".toList
    (∀ path ∈ paths input, (⟨[], []⟩ : Engine).filter path = path) ∧
      toLineFeeds input ++ missingEnd input = Utf8.encode "a\r\n".toList ∧
      (filter ⟨[], []⟩ false "" input).output = Utf8.encode "a\n".toList ∧
      (filter ⟨[], []⟩ false "" input).output ≠ toLineFeeds input ++ missingEnd input := by
  refine ⟨fun _ _ => rfl, ?_, ?_, ?_⟩
  · decide
  · decide
  · decide

end PathVeil.Stream
