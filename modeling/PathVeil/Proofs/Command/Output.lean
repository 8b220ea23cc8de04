import PathVeil.Proofs.Command.Stages
import PathVeil.Proofs.Rule.Compilation
import PathVeil.Proofs.Stream.Batch

/-!
# PathVeil.Proofs.Command.Output

What a `filter` command that succeeds has written. The input is opened, then the
output is created, and only then the input is read. Two names may mean the same file,
and then nothing is left to be read by that time: the output, which was to be the
filtered input, is empty, and the report counts no paths.

## Proof shape

`of_openOutput_returns`, `of_filterInto_returns` and `of_announce_returns` say what
each stage has put where. None of them puts a file where there is a directory, so
that all names lead to where they led before (`FileTree.SameDirectories`), and what
there is at one place depends on the last file that was put there alone.
-/

namespace PathVeil.Command

open FileTree (SameDirectories)

variable {environment : Environment} {options : FilterOptions} {quiet : Bool}
  {world between after : World}

/-! ### The report -/

/-- Whether a report can be seen where it is wanted: in its file, and on the standard
error stream. -/
structure Shows (options : FilterOptions) (quiet : Bool) (report : Report) (after : World) :
    Prop where
  file : ∀ name, options.jsonFile = some name →
    after.files.read after.directory name =
      .ok (Utf8.encode (report.toJson.pretty 0).toList)
  summary : options.noSummary = false → quiet = false → .text report.text ∈ after.emissions

/-- The report does not touch another file. -/
theorem of_announce_returns {report : Report} {place : Place} {content : List UInt8}
    (hplace : world.files.get? place = some (.file content))
    (hjson : ∀ name, options.jsonFile = some name →
      world.files.writable world.directory name ≠ .ok place)
    (h : (announce options quiet report).Returns world () after) :
    SameDirectories world.files after.files ∧ after.directory = world.directory ∧
      after.files.get? place = some (.file content) ∧ Shows options quiet report after := by
  cases hname : options.jsonFile with
  | none =>
    obtain ⟨hfiles, hdirectory, hsummary⟩ :=
      of_conclude_returns (of_announce_returns_of_none hname h)
    rw [hfiles]
    refine ⟨.refl _, hdirectory, hplace, ?_, hsummary⟩
    intro name hsome
    rw [hname] at hsome
    cases hsome
  | some name =>
    obtain ⟨written, hwrite, hconclude⟩ := of_announce_returns_of_some hname h
    obtain ⟨target, hwritable, hwritten, hdirectory'⟩ := of_writeReport_returns hwrite
    obtain ⟨hfiles, hdirectory, hsummary⟩ := of_conclude_returns hconclude
    rw [hwritten] at hfiles
    have htarget := (FileTree.writable_eq_ok_iff.mp hwritable).2.1
    have hsame := FileTree.sameDirectories_put htarget
      (Utf8.encode (report.toJson.pretty 0).toList)
    have hne : place ≠ target := by
      rintro rfl
      exact hjson name hname hwritable
    rw [hfiles, hdirectory, hdirectory']
    refine ⟨hsame, rfl, ?_, ?_, hsummary⟩
    · rw [FileTree.get?_put_of_ne _ _ hne, hplace]
    · intro other hother
      rw [hname, Option.some.injEq] at hother
      subst hother
      rw [hfiles, hdirectory, hdirectory']
      exact FileTree.read_of_writable hwritable hsame
        (FileTree.get?_put_self _ _ (FileTree.ne_nil_of_get?_ne htarget))

/-! ### The output -/

/-- What has been filtered into the output: the content of the input, or nothing if
it is the same file. -/
theorem of_openOutput_filterInto {engine : Engine} {reveal : Bool} {input output : String}
    {source : Place} {place : Option Place} {created : World} {report : Report}
    (hsource : world.files.openNode world.directory input = .ok source)
    (hcreate : (openOutput (some output)).Returns world place created)
    (hfilter : (filterInto engine reveal (.file input source) place).Returns created report after) :
    ∃ target content, world.files.writable world.directory output = .ok target ∧
      world.files.contentAt source = .ok content ∧
      let filtered := Stream.filter engine reveal input (if source = target then [] else content)
      report = filtered.report ∧ after.files = world.files.put target (.file filtered.output) ∧
        after.directory = world.directory := by
  obtain ⟨target, htarget, rfl, hcreated, hcreatedDirectory⟩ := of_openOutput_returns hcreate
  obtain ⟨seen, hseen, rfl, hfiltered, hdirectory⟩ := of_filterInto_returns hfilter
  rw [hcreated] at hseen hfiltered
  rw [FileTree.put_put_self] at hfiltered
  have hfree := (FileTree.writable_eq_ok_iff.mp htarget).2.1
  obtain ⟨content, hcontent, rfl⟩ := FileTree.exists_contentAt_of_emptied hsource hfree hseen
  exact ⟨target, content, htarget, hcontent, rfl, hfiltered, hdirectory.trans hcreatedDirectory⟩

/-- To filter nothing is to filter the content only if this is empty. -/
theorem output_filter_seen_iff {engine : Engine} {reveal : Bool} {sourceId : String}
    {source target : Place} {content : List UInt8} :
    (Stream.filter engine reveal sourceId (if source = target then [] else content)).output =
        (Stream.filter engine reveal sourceId content).output ↔
      (source = target → content = []) := by
  by_cases heq : source = target
  · have hnone : (Stream.filter engine reveal sourceId []).output = [] :=
      (Stream.output_filter_eq_nil_iff _ _ _).mpr rfl
    rw [if_pos heq, hnone, eq_comm, Stream.output_filter_eq_nil_iff]
    exact ⟨fun hcontent _ => hcontent, fun hcontent => hcontent heq⟩
  · rw [if_neg heq]
    exact ⟨fun _ hsource => absurd hsource heq, fun _ => rfl⟩

/-! ### The main result -/

/-- **What the output of a successful run holds.** It is the filtered content of the
input, and the report counts its lines, unless the two are one file: then it is as if
the input had been empty. So the output is what the input at the start should have
become exactly if they are different files, or there was nothing to filter. -/
theorem runFilter_output {input output : String} (hinput : options.inputFile = some input)
    (houtput : options.output = some output)
    (hjson : ∀ name place, options.jsonFile = some name →
      world.files.writable world.directory output = .ok place →
        world.files.writable world.directory name ≠ .ok place)
    (h : (runFilter environment options quiet).Returns world () after) :
    ∃ engine source target content,
      Prepares environment options world engine ∧
      world.files.openNode world.directory input = .ok source ∧
      world.files.contentAt source = .ok content ∧
      world.files.writable world.directory output = .ok target ∧
      let seen := if source = target then [] else content
      let filtered := Stream.filter engine environment.reveals input seen
      after.files.read after.directory output = .ok filtered.output ∧
      filtered.report.totalPaths = (Stream.lines seen).length ∧
      Shows options quiet filtered.report after ∧
      (filtered.output = (Stream.filter engine environment.reveals input content).output ↔
        (source = target → content = [])) := by
  rw [runFilter_eq] at h
  simp only [Run.returns_bind_iff, hinput, houtput] at h
  obtain ⟨engine, prepared, hprepare, _, opened, hopen, _, created, hcreate, report, filtered,
    hfilter, hannounce⟩ := h
  -- Until the output is created, the run has only looked at the world.
  have hprepared := (quiet_prepare environment options).of_returns hprepare
  have hopened := hprepared.trans ((quiet_openInput (some input)).of_returns hopen)
  obtain ⟨source, hsource, rfl⟩ := of_openInput_returns hopen
  rw [hprepared.files, hprepared.directory, ← hopened.files, ← hopened.directory] at hsource
  obtain ⟨target, content, htarget, hcontent, rfl, hfiltered, hdirectory⟩ :=
    of_openOutput_filterInto hsource hcreate hfilter
  rw [hopened.directory] at hdirectory
  rw [hopened.files, hopened.directory] at hsource htarget
  rw [hopened.files] at hcontent hfiltered
  have hfree := (FileTree.writable_eq_ok_iff.mp htarget).2.1
  have hwritten := congrArg (·.get? target) hfiltered
  simp only [FileTree.get?_put_self _ _ (FileTree.ne_nil_of_get?_ne hfree)] at hwritten
  have hsame : SameDirectories world.files filtered.files := by
    rw [hfiltered]
    exact FileTree.sameDirectories_put hfree _
  -- The report goes to another place, also in the world as it is by now.
  have hother : ∀ name, options.jsonFile = some name →
      filtered.files.writable filtered.directory name ≠ .ok target := by
    intro name hname hwritable
    rw [hdirectory] at hwritable
    exact hjson name target hname htarget
      (FileTree.writable_of_sameDirectories hsame htarget hwritable)
  obtain ⟨hsame', hdirectory', hkept, hshows⟩ := of_announce_returns hwritten hother hannounce
  have hread := FileTree.read_of_writable htarget (hsame.trans hsame') hkept
  rw [← hdirectory, ← hdirectory'] at hread
  exact ⟨engine, source, target, content, prepares_of_prepare hprepare, hsource, hcontent, htarget,
    hread, Stream.totalPaths_filter _ _ _ _, hshows, output_filter_seen_iff⟩

/-- A run with a single pattern, on the file `x`. -/
def onePattern : FilterOptions where
  inputFile := some "x"
  rules := { noDefaults := true, patterns := ["/a/{x}"] }

/-- A world in which the file `x` holds a single path. -/
def onePathWorld : World where
  files := FileTree.put {} ["x"] (.file [47, 97, 47, 49, 10])

/-- Input, output and report are three files: the output is the filtered input. -/
theorem runFilter_output_three_files :
    let options := { onePattern with output := some "y", jsonFile := some "j" }
    ∃ after engine content, (runFilter {} options false).Returns onePathWorld () after ∧
      Prepares {} options onePathWorld engine ∧
      onePathWorld.files.contentAt ["x"] = .ok content ∧
      after.files.read after.directory "y" =
        .ok (Stream.filter engine false "x" content).output := by
  intro options
  have hx : onePathWorld.files.openNode onePathWorld.directory "x" = .ok ["x"] := by decide +kernel
  have hy : onePathWorld.files.writable onePathWorld.directory "y" = .ok ["y"] := by decide +kernel
  have hj : onePathWorld.files.writable onePathWorld.directory "j" = .ok ["j"] := by decide +kernel
  have hreturns : (runFilter {} options false).Returns onePathWorld () _ :=
    Run.returns_of_toOption_eq (by decide +kernel)
  have hjson : ∀ name place, options.jsonFile = some name →
      onePathWorld.files.writable onePathWorld.directory "y" = .ok place →
        onePathWorld.files.writable onePathWorld.directory name ≠ .ok place := by
    intro name place hname hplace hsame
    cases hname
    rw [hy, Except.ok.injEq] at hplace
    rw [hj, Except.ok.injEq, ← hplace] at hsame
    exact absurd hsame (by decide)
  obtain ⟨engine, source, target, content, hprepares, hsource, hcontent, htarget, hread, -⟩ :=
    runFilter_output rfl rfl hjson hreturns
  rw [hx] at hsource
  rw [hy] at htarget
  cases hsource
  cases htarget
  exact ⟨_, engine, content, hreturns, hprepares, hcontent, hread⟩

/-- Input and output are one file: the path in it is lost, and not counted. -/
theorem runFilter_same_file :
    let options := { onePattern with output := some "x" }
    ∃ after engine content, (runFilter {} options false).Returns onePathWorld () after ∧
      Prepares {} options onePathWorld engine ∧
      onePathWorld.files.read onePathWorld.directory "x" = .ok content ∧
      after.files.read after.directory "x" ≠
        .ok (Stream.filter engine false "x" content).output ∧
      after.files.read after.directory "x" = .ok [] ∧
      (Stream.lines content).length = 1 ∧
      .text "Redacted 0 of 0 paths.\n" ∈ after.emissions := by
  intro options
  let rules := [Rule.ofPattern "cli_pattern_1" "/a/{x}" "XXX"]
  have hreturns : (runFilter {} options false).Returns onePathWorld () _ :=
    Run.returns_of_toOption_eq (by decide +kernel)
  have hconfig : (buildConfig {} options.rules).Returns onePathWorld rules _ :=
    Run.returns_of_toOption_eq (by decide +kernel)
  have hprepares : Prepares {} options onePathWorld ⟨rules.filterMap Rule.compiled?, rules⟩ :=
    ⟨rules, _, hconfig, rfl⟩
  have hempty : ((runFilter {} options false).run.run onePathWorld).2.files.read
      ((runFilter {} options false).run.run onePathWorld).2.directory "x" = .ok [] := by decide +kernel
  refine ⟨_, _, [47, 97, 47, 49, 10], hreturns, hprepares, by decide +kernel, ?_, hempty, by decide,
    by decide +kernel⟩
  rw [hempty, ne_eq, Except.ok.injEq, eq_comm, Stream.output_filter_eq_nil_iff]
  exact List.cons_ne_nil _ _

end PathVeil.Command
