import PathVeil.FileTree

/-!
# PathVeil.Proofs.FileTree.Writing

What writing a file does to the names of files. A name is followed from directory to
directory, so where it leads depends on the directories alone and on which of them may
be entered, and these stay the same when a file is put where there is no directory
(`SameDirectories`). A name that led to a place before still does so, and other files
are as they were.

A name that leads nowhere need not fail in the same way: what was missing on the way
may now be there, as a file.
-/

namespace PathVeil.FileTree

variable {tree other : FileTree} {directory place target : Place} {name : String}
  {names : List String} {content : List UInt8}

/-- Whether two trees have their directories at the same places, and permit the same. -/
structure SameDirectories (tree other : FileTree) : Prop where
  get?_iff : ∀ place, tree.get? place = some .directory ↔ other.get? place = some .directory
  permits : tree.permits = other.permits

namespace SameDirectories

theorem refl (tree : FileTree) : SameDirectories tree tree := ⟨fun _ => Iff.rfl, rfl⟩

theorem symm (h : SameDirectories tree other) : SameDirectories other tree :=
  ⟨fun place => (h.get?_iff place).symm, h.permits.symm⟩

theorem trans {third : FileTree} (h : SameDirectories tree other)
    (h' : SameDirectories other third) : SameDirectories tree third :=
  ⟨fun place => (h.get?_iff place).trans (h'.get?_iff place), h.permits.trans h'.permits⟩

end SameDirectories

/-- Of two files that are put at a place, the second one stays. -/
theorem put_put_self (tree : FileTree) (place : Place) (first second : FileNode) :
    (tree.put place first).put place second = tree.put place second := by
  simp [put, List.filter_filter]

/-- The root is a directory, so that nothing else is ever put there. -/
theorem ne_nil_of_get?_ne (h : tree.get? place ≠ some .directory) : place ≠ [] := by
  rintro rfl
  exact h rfl

theorem sameDirectories_put (h : tree.get? place ≠ some .directory) (content : List UInt8) :
    SameDirectories tree (tree.put place (.file content)) := by
  refine ⟨fun other => ?_, (permits_put tree place _).symm⟩
  by_cases hother : other = place
  · subst hother
    rw [get?_put_self tree _ (ne_nil_of_get?_ne h)]
    exact ⟨fun hdirectory => absurd hdirectory h, nofun⟩
  · rw [get?_put_of_ne tree _ hother]

/-! ### Names -/

theorem SameDirectories.enter_eq (h : SameDirectories tree other) (place : Place)
    (name : String) : tree.enter place name = other.enter place name := by
  rw [enter, enter, h.permits]

/-- Only a directory on the way lets the walk go on. -/
theorem walk_cons_cons_eq_ok_iff {following : String} :
    tree.walk place (name :: following :: names) = .ok target ↔
      ∃ next, tree.enter place name = .ok next ∧ tree.get? next = some .directory ∧
        tree.walk next (following :: names) = .ok target := by
  rw [walk.eq_3 _ _ _ _ (List.cons_ne_nil following names)]
  cases tree.enter place name with
  | error e => simp
  | ok next =>
    cases hget : tree.get? next with
    | none => simp [hget]
    | some node => cases node <;> simp [hget]

theorem walk_of_sameDirectories (h : SameDirectories tree other)
    (hwalk : tree.walk place names = .ok target) : other.walk place names = .ok target := by
  induction names generalizing place with
  | nil => exact hwalk
  | cons name names ih =>
    cases names with
    | nil => rwa [walk, ← h.enter_eq]
    | cons following names =>
      obtain ⟨next, henter, hnext, hrest⟩ := walk_cons_cons_eq_ok_iff.mp hwalk
      rw [h.enter_eq] at henter
      exact walk_cons_cons_eq_ok_iff.mpr ⟨next, henter, (h.get?_iff next).mp hnext, ih hrest⟩

/-- A name leads to the same place where the directories are the same. -/
theorem resolve_of_sameDirectories (h : SameDirectories tree other)
    (hresolve : tree.resolve directory name = .ok place) :
    other.resolve directory name = .ok place := by
  rw [resolve] at hresolve ⊢
  by_cases hempty : name.isEmpty
  · rw [if_pos hempty] at hresolve
    cases hresolve
  by_cases hlong : maxPathLength < name.utf8ByteSize
  · rw [if_neg hempty, if_pos hlong] at hresolve
    cases hresolve
  rw [if_neg hempty, if_neg hlong] at hresolve ⊢
  exact walk_of_sameDirectories h hresolve

/-! ### Files -/

theorem writable_eq_ok_iff :
    tree.writable directory name = .ok place ↔
      tree.resolve directory name = .ok place ∧ tree.get? place ≠ some .directory ∧
        meansDirectory name = false ∧ tree.permits .writing (tree.gate place) = true := by
  rw [writable]
  cases hresolve : tree.resolve directory name with
  | error e => exact ⟨nofun, nofun⟩
  | ok found =>
    simp only [Except.ok.injEq]
    split
    case h_1 hget =>
      refine ⟨nofun, ?_⟩
      rintro ⟨rfl, hne, -⟩
      exact absurd hget hne
    case h_2 hget =>
      cases hname : meansDirectory name with
      | true => exact ⟨nofun, nofun⟩
      | false =>
        cases hpermits : tree.permits .writing (tree.gate found) with
        | true =>
          constructor
          · intro h
            cases h
            exact ⟨rfl, hget, rfl, hpermits⟩
          · rintro ⟨rfl, -⟩
            rfl
        | false =>
          refine ⟨nofun, ?_⟩
          rintro ⟨rfl, -, -, htrue⟩
          exact absurd (htrue.symm.trans hpermits) nofun

/-- Of the names that lead to a place now, each can be written if one could be: it is
the place that the rights are about. -/
theorem writable_of_sameDirectories {another : String} {elsewhere : Place}
    (h : SameDirectories tree other) (hplace : tree.writable elsewhere name = .ok place)
    (hother : other.writable directory another = .ok place) :
    tree.writable directory another = .ok place := by
  obtain ⟨-, hfree, -, hpermits⟩ := writable_eq_ok_iff.mp hplace
  obtain ⟨hresolve, -, hname, -⟩ := writable_eq_ok_iff.mp hother
  exact writable_eq_ok_iff.mpr
    ⟨resolve_of_sameDirectories h.symm hresolve, hfree, hname, hpermits⟩

/-- What is read under the name that was written. -/
theorem read_of_writable (h : tree.writable directory name = .ok place)
    (hsame : SameDirectories tree other) (hget : other.get? place = some (.file content)) :
    other.read directory name = .ok content := by
  obtain ⟨hresolve, -, hname, -⟩ := writable_eq_ok_iff.mp h
  have hother := resolve_of_sameDirectories hsame hresolve
  simp [read, locate, hother, hget, hname, contentAt]

theorem contentAt_eq_ok_iff :
    tree.contentAt place = .ok content ↔ tree.get? place = some (.file content) := by
  rw [contentAt]
  cases tree.get? place with
  | none => simp
  | some node => cases node <;> simp

theorem openNode_eq_ok_iff :
    tree.openNode directory name = .ok place ↔
      tree.locate directory name = .ok place ∧ tree.permits .reading place = true := by
  rw [openNode]
  cases tree.locate directory name with
  | error e => exact ⟨nofun, nofun⟩
  | ok found =>
    simp only [Except.ok.injEq]
    split
    case isTrue hpermits =>
      rw [Except.ok.injEq]
      refine ⟨fun heq => ⟨heq, heq ▸ hpermits⟩, And.left⟩
    case isFalse hpermits =>
      refine ⟨nofun, ?_⟩
      rintro ⟨rfl, htrue⟩
      exact absurd htrue hpermits

theorem exists_get?_of_locate (h : tree.locate directory name = .ok place) :
    ∃ node, tree.get? place = some node := by
  rw [locate] at h
  cases hresolve : tree.resolve directory name with
  | error e => simp [hresolve] at h
  | ok found =>
    simp only [hresolve] at h
    split at h
    case h_1 hget => cases h
    case h_2 content hget =>
      split at h
      · cases h
      · cases h
        exact ⟨_, hget⟩
    case h_3 hget =>
      cases h
      exact ⟨_, hget⟩

/-- What can be opened, and could be written, is a file. -/
theorem exists_contentAt (hopen : tree.openNode directory name = .ok place)
    (hget : tree.get? place ≠ some .directory) : ∃ content, tree.contentAt place = .ok content := by
  obtain ⟨node, hnode⟩ := exists_get?_of_locate (openNode_eq_ok_iff.mp hopen).1
  cases node with
  | file content => exact ⟨content, contentAt_eq_ok_iff.mpr hnode⟩
  | directory => exact absurd hnode hget

/-- What there is to read when another file, or the same one, has been made empty. -/
theorem exists_contentAt_of_emptied {source : Place} {seen : List UInt8}
    (hopen : tree.openNode directory name = .ok source)
    (htarget : tree.get? target ≠ some .directory)
    (hseen : (tree.put target (.file [])).contentAt source = .ok seen) :
    ∃ content, tree.contentAt source = .ok content ∧
      seen = if source = target then [] else content := by
  rw [contentAt_eq_ok_iff] at hseen
  by_cases heq : source = target
  · subst heq
    obtain ⟨content, hcontent⟩ := exists_contentAt hopen htarget
    rw [get?_put_self _ _ (ne_nil_of_get?_ne htarget)] at hseen
    cases hseen
    exact ⟨content, hcontent, (if_pos rfl).symm⟩
  · rw [get?_put_of_ne _ _ heq] at hseen
    exact ⟨seen, contentAt_eq_ok_iff.mpr hseen, (if_neg heq).symm⟩

end PathVeil.FileTree
