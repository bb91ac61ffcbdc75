import MessageHarvest.Config.Load
import MessageHarvest.Proofs.Files.Ancestors
import MessageHarvest.Proofs.Files.Looking

/-! # Where the configuration is found

    The search for a configuration only looks at paths, so it is described by
    what stands where, on any file system that does not change by being looked
    at.

    * `findIn_run`: in a list of directories, the first one with a configuration
      has it, unless one before it has a `.git`. The order of the two questions
      matters: a directory may have both.
    * `find?_nearest`: the directories are those above the start, so the result
      is decided by the least number of levels to go up. -/

namespace MessageHarvest.Config

section Search

variable {σ : Type} [FileSystem (StateM σ)] {s : σ}

/-- Whether something stands at a path of a file system in some state. -/
def There (s : σ) (p : Path) : Prop :=
  ((FileSystem.kind? p : StateM σ (Option FileKind)).run s).1.isSome = true

instance (s : σ) (p : Path) : Decidable (There s p) := inferInstanceAs (Decidable (_ = true))

/-- Whether a file system stays as it is when one looks at paths. -/
def Still (s : σ) : Prop :=
  ∀ p, ((FileSystem.kind? p : StateM σ (Option FileKind)).run s).2 = s

/-! ## Directories one after the other -/

theorem Still.isThere (h : Still s) (p : Path) : ∃ there : Bool,
    (FileSystem.isThere p : StateM σ Bool).run s = (there, s) ∧ (there = true ↔ There s p) :=
  ⟨_, Prod.ext rfl (h p), Iff.rfl⟩

/-- The configuration file of the first directory that has one, if no directory
    before it has a `.git`. -/
def Nearest (s : σ) (dirs : List Path) (file : Path) : Prop :=
  ∃ (i : Nat) (dir : Path), dirs[i]? = some dir ∧ file = dir.child fileName ∧ There s file ∧
    ∀ j < i, ∀ d : Path, dirs[j]? = some d →
      ¬ There s (d.child fileName) ∧ ¬ There s (d.child ".git")

theorem not_nearest_nil {file : Path} : ¬ Nearest s [] file := by
  rintro ⟨i, dir, hdir, -⟩
  cases hdir

theorem nearest_cons {dir : Path} {above : List Path} {file : Path} :
    Nearest s (dir :: above) file ↔ (file = dir.child fileName ∧ There s file) ∨
      ¬ There s (dir.child fileName) ∧ ¬ There s (dir.child ".git") ∧ Nearest s above file := by
  constructor
  · rintro ⟨i, d, hd, hfile, hthere, hbefore⟩
    cases i with
    | zero =>
      cases hd
      exact .inl ⟨hfile, hthere⟩
    | succ i =>
      obtain ⟨hconfig, hgit⟩ := hbefore 0 (Nat.succ_pos i) dir rfl
      refine .inr ⟨hconfig, hgit, i, d, hd, hfile, hthere, fun j hj => ?_⟩
      exact hbefore (j + 1) (Nat.succ_lt_succ hj)
  · rintro (⟨hfile, hthere⟩ | ⟨hconfig, hgit, i, d, hd, hfile, hthere, hbefore⟩)
    · exact ⟨0, dir, rfl, hfile, hthere, fun j hj => absurd hj (Nat.not_lt_zero j)⟩
    · refine ⟨i + 1, d, hd, hfile, hthere, fun j hj d' hd' => ?_⟩
      cases j with
      | zero =>
        cases hd'
        exact ⟨hconfig, hgit⟩
      | succ j => exact hbefore j (Nat.lt_of_succ_lt_succ hj) d' hd'

theorem findIn_run (h : Still s) (dirs : List Path) : ∃ answer,
    (findIn dirs : StateM σ (Option Path)).run s = (answer, s) ∧
      ∀ file, answer = some file ↔ Nearest s dirs file := by
  induction dirs with
  | nil => exact ⟨none, rfl, fun file => by simp [not_nearest_nil]⟩
  | cons dir above ih =>
    obtain ⟨hasConfig, hconfigRun, hconfig⟩ := h.isThere (dir.child fileName)
    obtain ⟨hasGit, hgitRun, hgit⟩ := h.isThere (dir.child ".git")
    obtain ⟨answer, hrun, hanswer⟩ := ih
    rw [findIn]
    cases hasConfig with
    | true =>
      -- the search ends here and never asks for a `.git`
      refine ⟨some (dir.child fileName), run_bind_of_run hconfigRun, fun file => ?_⟩
      have hthere := hconfig.1 rfl
      rw [nearest_cons]
      constructor
      · rintro ⟨⟩
        exact .inl ⟨rfl, hthere⟩
      · rintro (⟨rfl, -⟩ | ⟨hnot, -⟩)
        · rfl
        · exact absurd hthere hnot
    | false =>
      have hnot : ¬ There s (dir.child fileName) := fun hthere => nomatch hconfig.2 hthere
      have hfile : ∀ file, ¬ (file = dir.child fileName ∧ There s file) := by
        rintro file ⟨rfl, hthere⟩
        exact hnot hthere
      cases hasGit with
      | true =>
        have hboundary := hgit.1 rfl
        refine ⟨none, (run_bind_of_run hconfigRun).trans (run_bind_of_run hgitRun), fun file => ?_⟩
        simp [nearest_cons, hfile, hboundary]
      | false =>
        have hboundary : ¬ There s (dir.child ".git") := fun hthere => nomatch hgit.2 hthere
        refine ⟨answer, (run_bind_of_run hconfigRun).trans ((run_bind_of_run hgitRun).trans hrun),
          fun file => ?_⟩
        simp [nearest_cons, hfile, hnot, hboundary, hanswer]

/-! ## Up from a place -/

/-- The configuration file some levels above a place. -/
def fileAbove (place : Place) (i : Nat) : Path :=
  Disk.pathOf (place.take (place.length - i) ++ [fileName])

/-- The mark of a repository some levels above a place. -/
def boundaryAbove (place : Place) (i : Nat) : Path :=
  Disk.pathOf (place.take (place.length - i) ++ [".git"])

variable {place : Place}

theorem nearest_ancestors (h : ∀ n ∈ place, Path.Plain n) {file : Path} :
    Nearest s (Disk.pathOf place).ancestors file ↔ ∃ i ≤ place.length,
      file = fileAbove place i ∧ There s file ∧
        ∀ j < i, ¬ There s (fileAbove place j) ∧ ¬ There s (boundaryAbove place j) := by
  have hplain : ∀ i, ∀ n ∈ place.take i, Path.Plain n := fun i n hn => h n (List.mem_of_mem_take hn)
  have hchild : ∀ {name} i, Path.Plain name → (Disk.pathOf (place.take i)).child name =
      Disk.pathOf (place.take i ++ [name]) := fun i hname => Path.child_pathOf (hplain i) hname
  have hfile : Path.Plain fileName := by decide
  have hgit : Path.Plain ".git" := by decide
  constructor
  · rintro ⟨i, dir, hdir, rfl, hthere, hbefore⟩
    rw [Path.getElem?_ancestors_pathOf h] at hdir
    split at hdir
    · next hi =>
      cases hdir
      rw [hchild _ hfile] at hthere ⊢
      refine ⟨i, hi, rfl, hthere, fun j hj => ?_⟩
      have hj' : j ≤ place.length := by omega
      have := hbefore j hj (Disk.pathOf (place.take (place.length - j)))
        (by rw [Path.getElem?_ancestors_pathOf h, if_pos hj'])
      rwa [hchild _ hfile, hchild _ hgit] at this
    · cases hdir
  · rintro ⟨i, hi, rfl, hthere, hbefore⟩
    refine ⟨i, Disk.pathOf (place.take (place.length - i)), ?_, (hchild _ hfile).symm, hthere, ?_⟩
    · rw [Path.getElem?_ancestors_pathOf h, if_pos hi]
    · intro j hj d hd
      rw [Path.getElem?_ancestors_pathOf h, if_pos (by omega)] at hd
      cases hd
      rw [hchild _ hfile, hchild _ hgit]
      exact hbefore j hj

/-- Different levels have different configuration files. -/
theorem fileAbove_injective (h : ∀ n ∈ place, Path.Plain n) {i j : Nat} (hi : i ≤ place.length)
    (hj : j ≤ place.length) (heq : fileAbove place i = fileAbove place j) : i = j := by
  have hplain : ∀ i, ∀ n ∈ place.take i ++ [fileName], Path.Plain n := by
    intro i n hn
    rcases List.mem_append.1 hn with hn | hn
    · exact h n (List.mem_of_mem_take hn)
    · rw [List.mem_singleton.1 hn]
      decide
  have hnames := congrArg List.length (Path.pathOf_injective (hplain _) (hplain _) heq)
  simp only [List.length_append, List.length_take, List.length_singleton] at hnames
  omega

/-- **Search for a configuration.** From a start whose absolute path is spelled
    by the names of a place, going up one level after the other, the result is
    the configuration file at the least level that has one, provided that no
    level below it has a `.git`, and nothing if there is no such level. A `.git`
    beside the configuration does not hide it, and one below it always does. -/
theorem find?_nearest {start : Path} (hstill : Still s)
    (hstart : (FileSystem.canonical? start : StateM σ (Option Path)).run s =
      (some (Disk.pathOf place), s))
    (hplace : ∀ n ∈ place, Path.Plain n) :
    ∃ answer, (find? start : StateM σ (Option Path)).run s = (answer, s) ∧
      (∀ file, answer = some file ↔ ∃ i ≤ place.length,
        file = fileAbove place i ∧ There s file ∧
          ∀ j < i, ¬ There s (fileAbove place j) ∧ ¬ There s (boundaryAbove place j)) ∧
      (∀ i ≤ place.length, There s (boundaryAbove place i) → There s (fileAbove place i) →
        (∀ j < i, ¬ There s (fileAbove place j) ∧ ¬ There s (boundaryAbove place j)) →
        answer = some (fileAbove place i)) ∧
      ∀ i ≤ place.length, ∀ j < i, There s (boundaryAbove place j) →
        answer ≠ some (fileAbove place i) := by
  obtain ⟨answer, hrun, hanswer⟩ := findIn_run hstill (Disk.pathOf place).ancestors
  have hexact := fun file => (hanswer file).trans (nearest_ancestors hplace)
  refine ⟨answer, (run_bind_of_run hstart).trans hrun, hexact, ?_, ?_⟩
  · intro i hi _ hthere hbefore
    exact (hexact _).2 ⟨i, hi, rfl, hthere, hbefore⟩
  · intro i hi j hj hboundary hfound
    obtain ⟨k, hk, heq, -, hbefore⟩ := (hexact _).1 hfound
    cases fileAbove_injective hplace hi hk heq
    exact (hbefore j hj).2 hboundary

end Search

/-- Two directories below a repository with a configuration, in a home that has
    a configuration of its own. -/
def nested : Disk :=
  (((Disk.empty.install ["home", "p", "src", "main"] .directory).install
    ["home", "p", ".git"] .directory).install
    ["home", "p", fileName] (.file [])).install ["home", fileName] (.file [])

theorem find?_nearest_nested :
    Still nested ∧
    (find? ⟨"/home/p/src/../src/main"⟩ : StateM Disk (Option Path)).run nested =
      (some ⟨"/home/p/.glotpotrc.json"⟩, nested) := by
  have hstill : Still nested := fun p => rfl
  have hstart : (FileSystem.canonical? ⟨"/home/p/src/../src/main"⟩ : StateM Disk _).run nested =
      (some (Disk.pathOf ["home", "p", "src", "main"]), nested) :=
    Prod.ext (by decide +kernel) rfl
  obtain ⟨answer, hrun, -, hbeside, -⟩ := find?_nearest hstill hstart (by decide)
  have hanswer := hbeside 2 (by decide) (by decide +kernel) (by decide +kernel) (by decide +kernel)
  have hfile : fileAbove ["home", "p", "src", "main"] 2 = ⟨"/home/p/.glotpotrc.json"⟩ := by decide
  rw [hrun, hanswer, hfile]
  exact ⟨hstill, rfl⟩

end MessageHarvest.Config
