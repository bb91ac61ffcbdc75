import MessageHarvest.Proofs.Extraction.Opening
import MessageHarvest.Proofs.Files.Relative
import MessageHarvest.Proofs.Scan.Findings
import MessageHarvest.Proofs.Source.Lowering

/-! # The files that occurrences are in

    An occurrence names its file by the path relative to the root of the
    project. That path stands for one file only, as long as the root is not the
    empty path, and no project is opened at the empty path.

    * `Project.path_of_scanText`: all that is found in a file has its relative
      path.
    * `relativeTo_identifies`: relative paths tell files apart and lead back to
      them, and so do the paths of occurrences. -/

namespace MessageHarvest

/-! ## Scanning a file -/

theorem Tree.path_foldl_addTo (cs : List Tree) (u : SourceUnit) :
    (cs.foldl addTo u).path = u.path := by
  induction cs generalizing u with
  | nil => rfl
  | cons c cs ih =>
    have hstep : (addTo u c).path = u.path := by
      unfold addTo
      split <;> rfl
    rw [List.foldl_cons, ih, hstep]

/-- All that is found in a file has the path of the file relative to the root. -/
theorem Project.path_of_scanText {p : Project} {file : Path} {text : String} {s : Store}
    (h : p.scanText file text = .ok s) {k : Message.Key} {x : Occurrence} (hx : s.Occurs k x) :
    x.path = p.root.relativeTo file := by
  obtain ⟨u, hu, hscan⟩ := bind_eq_ok_iff.1 h
  obtain ⟨t, -, rfl⟩ := SourceUnit.parse_eq_ok_iff.1 (ok_of_mapError hu)
  obtain ⟨fs, rfl, -⟩ := Scan.scan_eq_ok (ok_of_mapError hscan)
  rw [Store.occurs_ofRecords] at hx
  obtain ⟨f, -, hf⟩ := List.mem_map.1 hx
  cases hf
  exact Tree.path_foldl_addTo t.children _

/-! ## Files and their relative paths -/

section Identity

variable {p q root : Path}

/-- Below a root that is not empty, relative paths tell files apart. -/
theorem Path.relativeTo_eq_iff_components (hroot : root.text ≠ "")
    (hp : p.isBelow root = true) (hq : q.isBelow root = true) :
    root.relativeTo p = root.relativeTo q ↔ p.components = q.components := by
  obtain ⟨cs, hcs⟩ := isBelow_iff_exists.1 hp
  obtain ⟨ds, hds⟩ := isBelow_iff_exists.1 hq
  rw [relativeTo_eq_iff hcs hds, withoutCurrent_of_inner (inner_of_added hcs hroot),
    withoutCurrent_of_inner (inner_of_added hds hroot), hcs, hds, List.append_cancel_left_eq]

/-- Below a root that is not empty, relative paths lead back to the files. -/
theorem Path.retraces_components (hroot : root.text ≠ "") (hp : p.isBelow root = true) :
    root.Retraces p p.components := by
  obtain ⟨cs, hcs⟩ := isBelow_iff_exists.1 hp
  have hback := retraces hcs fun hempty => absurd hempty hroot
  rwa [withoutCurrent_of_inner (inner_of_added hcs hroot), ← hcs] at hback

end Identity

/-- **Paths of occurrences identify files.**

    * Below a root that is not empty, two files have the same relative path only
      if they have the same components; and a relative path does not start with
      a slash, has no `.`, and leads from the root back to the file.
    * Below the empty root, below which every path is, the same holds up to a `.`
      in front. There it is left open whether the relative path of a file that
      starts with a slash does so as well, and where it leads.
    * No project is opened at the empty root. So in an open project the path of
      an occurrence stands for one file below the root. -/
theorem relativeTo_identifies :
    (∀ root : Path, root.text ≠ "" →
      (∀ p q : Path, p.isBelow root = true → q.isBelow root = true →
        (root.relativeTo p = root.relativeTo q ↔ p.components = q.components)) ∧
      ∀ p : Path, p.isBelow root = true → root.Retraces p p.components) ∧
    ((∀ p q : Path, Path.relativeTo ⟨""⟩ p = Path.relativeTo ⟨""⟩ q ↔
        Path.withoutCurrent p.components = Path.withoutCurrent q.components) ∧
      (∀ p : Path, "." ∉ Path.split (Path.relativeTo ⟨""⟩ p)) ∧
      ∀ p : Path, p.isAbsolute = false →
        Path.Retraces ⟨""⟩ p (Path.withoutCurrent p.components)) ∧
    ∀ (o : ExtractOptions) (d d' : Disk) (project : Project),
      Disk.run (Project.load o) d = (.ok project, d') →
      project.root.text ≠ "" ∧
      ∀ (p q : Path) (source source' : String) (s s' : Store) (k k' : Message.Key)
        (x x' : Occurrence), p.isBelow project.root = true → q.isBelow project.root = true →
        project.scanText p source = .ok s → project.scanText q source' = .ok s' →
        s.Occurs k x → s'.Occurs k' x' → (x.path = x'.path ↔ p.components = q.components) := by
  refine ⟨?_, ⟨?_, ?_, ?_⟩, ?_⟩
  · intro root hroot
    constructor
    · intro p q hp hq
      exact Path.relativeTo_eq_iff_components hroot hp hq
    · intro p hp
      exact Path.retraces_components hroot hp
  · intro p q
    exact Path.relativeTo_eq_iff p.components_below_empty q.components_below_empty
  · intro p
    apply Path.current_not_mem_split
    exact Path.dot_not_mem_parts_relativeTo p.components_below_empty
  · intro p hp
    exact Path.retraces p.components_below_empty fun _ => hp
  · intro o d d' project hload
    have hroot := Project.root_ne_empty_of_load hload
    refine ⟨hroot, ?_⟩
    intro p q source source' s s' k k' x x' hp hq hs hs' hx hx'
    rw [Project.path_of_scanText hs hx, Project.path_of_scanText hs' hx']
    exact Path.relativeTo_eq_iff_components hroot hp hq

/-- A directory that can be opened as a project. -/
def sampleDirectory : Disk := Disk.empty.install ["src", "main", "java"] .directory

/-- A file with one message. -/
def sampleText : String := "class A \x7b String s = tr(\"x\"); \x7d"

/-- What is found in `sampleText`. -/
def sampleFound (path : String) : Store := .ofRecords [(⟨"x", none⟩, ⟨path, 1⟩)]

theorem occurs_sampleFound (path : String) : (sampleFound path).Occurs ⟨"x", none⟩ ⟨path, 1⟩ :=
  Store.occurs_ofRecords.2 (List.mem_singleton.2 rfl)

/-- The directory is opened at `.`, and two files of one text are scanned there. -/
theorem exists_sampleProject : ∃ project : Project,
    Disk.run (Project.load {}) sampleDirectory = (.ok project, sampleDirectory) ∧
    (Path.isBelow ⟨"./src/A.java"⟩ project.root = true ∧
      Path.isBelow ⟨"./src/B.java"⟩ project.root = true) ∧
    project.scanText ⟨"./src/A.java"⟩ sampleText = .ok (sampleFound "src/A.java") ∧
    project.scanText ⟨"./src/B.java"⟩ sampleText = .ok (sampleFound "src/B.java") := by
  have hloaded : (Disk.run (Project.load {}) sampleDirectory).1.toOption.any (fun p =>
      Path.isBelow ⟨"./src/A.java"⟩ p.root && Path.isBelow ⟨"./src/B.java"⟩ p.root &&
        (p.scanText ⟨"./src/A.java"⟩ sampleText).toOption == some (sampleFound "src/A.java") &&
        (p.scanText ⟨"./src/B.java"⟩ sampleText).toOption == some (sampleFound "src/B.java")) =
      true := by
    decide +kernel
  rw [Option.any_eq_true] at hloaded
  obtain ⟨project, hproject, hfacts⟩ := hloaded
  simp only [Bool.and_eq_true, beq_iff_eq] at hfacts
  obtain ⟨⟨hbelow, hscan⟩, hscan'⟩ := hfacts
  obtain ⟨w, hw⟩ := Quiet.loadProject {} sampleDirectory
  have hrun : Disk.run (Project.load {}) sampleDirectory = (w, sampleDirectory) := hw
  rw [hrun] at hproject
  have hok : w = .ok project := ok_of_toOption hproject
  rw [hok] at hrun
  exact ⟨project, hrun, hbelow, ok_of_toOption hscan, ok_of_toOption hscan'⟩

theorem relativeTo_identifies_sample :
    (Path.relativeTo ⟨"./app/"⟩ ⟨"./app//src/./A.java"⟩ ≠
        Path.relativeTo ⟨"./app/"⟩ ⟨"./app/src/../A.java"⟩ ∧
      Path.Retraces ⟨"./app/"⟩ ⟨"./app//src/./A.java"⟩
        [.current, .normal "app", .normal "src", .normal "A.java"]) ∧
    (Path.relativeTo ⟨""⟩ ⟨"./a"⟩ = Path.relativeTo ⟨""⟩ ⟨"a/."⟩ ∧
      Path.Retraces ⟨""⟩ ⟨"./a"⟩ [.normal "a"]) ∧
    ∃ (project : Project) (s s' : Store) (k : Message.Key) (x x' : Occurrence),
      Disk.run (Project.load {}) sampleDirectory = (.ok project, sampleDirectory) ∧
      project.scanText ⟨"./src/A.java"⟩ sampleText = .ok s ∧
      project.scanText ⟨"./src/B.java"⟩ sampleText = .ok s' ∧
      s.Occurs k x ∧ s'.Occurs k x' ∧ x.path ≠ x'.path := by
  obtain ⟨hrooted, ⟨hempty, -, hrelative⟩, hopened⟩ := relativeTo_identifies
  obtain ⟨hapart, hback⟩ := hrooted ⟨"./app/"⟩ (by decide)
  refine ⟨⟨?_, ?_⟩, ⟨?_, ?_⟩, ?_⟩
  · rw [ne_eq, hapart _ _ (by decide +kernel) (by decide +kernel)]
    decide +kernel
  · exact hback ⟨"./app//src/./A.java"⟩ (by decide +kernel)
  · rw [hempty]
    decide +kernel
  · exact hrelative ⟨"./a"⟩ (by decide)
  · obtain ⟨project, hload, ⟨hbelow, hbelow'⟩, hscan, hscan'⟩ := exists_sampleProject
    have hfound := occurs_sampleFound "src/A.java"
    have hfound' := occurs_sampleFound "src/B.java"
    have hidentifies := (hopened {} _ _ project hload).2 _ _ _ _ _ _ _ _ _ _ hbelow hbelow'
      hscan hscan' hfound hfound'
    refine ⟨project, _, _, _, _, _, hload, hscan, hscan', hfound, hfound', ?_⟩
    rw [ne_eq, hidentifies]
    decide +kernel

/-- Below the empty root a `.` in front makes another path but no other relative
    path, and a slash in front stays there. -/
theorem relativeTo_empty_root :
    (Path.isBelow ⟨"a"⟩ ⟨""⟩ = true ∧ Path.isBelow ⟨"./a"⟩ ⟨""⟩ = true ∧
      Path.components ⟨"a"⟩ ≠ Path.components ⟨"./a"⟩ ∧
      Path.relativeTo ⟨""⟩ ⟨"a"⟩ = Path.relativeTo ⟨""⟩ ⟨"./a"⟩) ∧
    Path.isBelow ⟨"/a"⟩ ⟨""⟩ = true ∧
      (Path.relativeTo ⟨""⟩ ⟨"/a"⟩).toList.head? = some '/' := by
  decide +kernel

end MessageHarvest
