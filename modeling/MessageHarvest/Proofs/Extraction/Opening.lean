import MessageHarvest.Extraction.Project
import MessageHarvest.Proofs.Files.Disk
import MessageHarvest.Proofs.Files.Looking
import MessageHarvest.Proofs.Outcome

/-! # Opening a project

    A project is opened by looking only. Each step can fail in its own way, and
    what comes out is known from the step at which the way ends.

    * `Project.Opens`: the outcomes that opening a project can have, each with
      what has been found out by then.
    * `Project.opens_of_load`: there are no other ones, and the disk stays as it
      is.
    * `Project.root_ne_empty_of_load`: the root of an open project is the path of
      a directory, which the empty path never is. -/

namespace MessageHarvest

/-! ## Steps that only look -/

namespace Quiet

variable {ε ε' α β : Type} {d d' : Disk}

theorem run_eq {x : ExceptT ε (StateM Disk) α} (hx : Quiet x.run) {r : Except ε α}
    (h : Disk.run x d = (r, d')) : d' = d := by
  obtain ⟨a, ha⟩ := hx d
  have heq : (r, d') = (a, d) := h.symm.trans ha
  cases heq
  rfl

/-- A program that begins quietly fails without a trace, or goes on from the
    same disk. -/
theorem adapt_bind_cases {x : ExceptT ε (StateM Disk) α} {f : ε → ε'}
    {g : α → ExceptT ε' (StateM Disk) β} (hx : Quiet x.run) {r : Except ε' β}
    (h : Disk.run (x.adapt f >>= g) d = (r, d')) :
    (∃ e, Disk.run x d = (.error e, d) ∧ r = .error (f e) ∧ d' = d) ∨
      ∃ a, Disk.run x d = (.ok a, d) ∧ Disk.run (g a) d = (r, d') := by
  rcases Disk.run_bind_cases h with ⟨e, he, rfl⟩ | ⟨a, d₁, ha, hrest⟩
  · obtain ⟨w, hw, hmap⟩ := Disk.run_adapt_cases he
    have hd := hx.run_eq hw
    subst hd
    cases w with
    | ok a => cases hmap
    | error cause =>
      cases hmap
      exact .inl ⟨cause, hw, rfl, rfl⟩
  · obtain ⟨w, hw, hmap⟩ := Disk.run_adapt_cases ha
    have hd := hx.run_eq hw
    subst hd
    cases w with
    | error cause => cases hmap
    | ok b =>
      cases hmap
      exact .inr ⟨a, hw, hrest⟩

/-- A quiet step that cannot fail only answers. -/
theorem run_lift_bind {x : StateM Disk α} (hx : Quiet x) {f : α → ExceptT ε (StateM Disk) β}
    {r : Except ε β} (h : Disk.run ((liftM x : ExceptT ε (StateM Disk) α) >>= f) d = (r, d')) :
    Disk.run (f (d.look x)) d = (r, d') := by
  obtain ⟨e, he, -⟩ | ⟨a, d₁, ha, hrest⟩ := Disk.run_bind_cases h
  · cases he
  · have hd : d₁ = d := hx.lift.run_eq ha
    have hlook : d.look x = a := by
      cases ha
      rfl
    rwa [hd, ← hlook] at hrest

theorem findIn (dirs : List Path) : Quiet (Config.findIn dirs) := by
  induction dirs with
  | nil => exact pure none
  | cons dir above ih =>
    rw [Config.findIn]
    refine (isThere _).bind fun there => ?_
    split
    · exact pure _
    · refine (isThere _).bind fun stop => ?_
      split
      · exact pure none
      · exact ih

theorem loadConfig (dir : Path) : Quiet (Config.load dir).run := by
  have hfind : Quiet (Config.find? dir) := (canonical? dir).bind fun _ => findIn _
  refine (lift hfind).bindE fun file => ?_
  cases file with
  | none => exact pure _
  | some path =>
    refine (attempt (readText path) _).bindE fun text => ?_
    exact bindE (pure _) fun _ => pure _

end Quiet

/-! ## What can come out -/

/-- The path at which a project is opened. -/
def ExtractOptions.root (o : ExtractOptions) : Path := o.root?.getD ⟨"."⟩

namespace Project

variable {o : ExtractOptions} {d d' : Disk} {p : Project}

/-- A directory with a configuration for it. -/
structure Configured (o : ExtractOptions) (d : Disk) (loaded : Config.Loaded) : Prop where
  directory : ∃ place, d.find? o.root = some (place, .directory)
  load : Disk.run (Config.load o.root) d = (.ok loaded, d)

/-- The outcomes of opening a project, in the order of the steps. -/
inductive Opens (o : ExtractOptions) (d : Disk) : Except CommandError Project → Prop
  | missing (h : ∀ place, d.find? o.root ≠ some (place, .directory)) :
      Opens o d (.error (.source (.missing o.root)))
  | unconfigured {cause} (h : Disk.run (Config.load o.root) d = (.error cause, d)) :
      Opens o d (.error (.config cause))
  | unencoded {loaded cause} (h : Configured o d loaded)
      (hencoding : Encoding.resolve (loaded.config.override o).encoding = .error cause) :
      Opens o d (.error (.catalog (.unknownEncoding cause)))
  | unruly {loaded cause} (h : Configured o d loaded)
      (hregistry : (loaded.config.override o).registry = .error cause) :
      Opens o d (.error (.source (.rules cause)))
  | incomplete {loaded} {path : Path} (h : Configured o d loaded)
      (hsources : d.look (SourceFiles.discover o.root (loaded.config.override o).includes
        (loaded.config.override o).ignores) = .error path) :
      Opens o d (.error (.source (.missing path)))
  | opened {loaded encoding registry sources} (h : Configured o d loaded)
      (hencoding : Encoding.resolve (loaded.config.override o).encoding = .ok encoding)
      (hregistry : (loaded.config.override o).registry = .ok registry)
      (hsources : d.look (SourceFiles.discover o.root (loaded.config.override o).includes
        (loaded.config.override o).ignores) = .ok sources) :
      Opens o d (.ok {
        config := loaded.config.override o, root := o.root, sources, registry, encoding
        output := outputPath o.root (loaded.config.override o)
        removeUnused := (loaded.config.override o).removeUnused && !o.keepUnused })

/-- Opening a project has one of its outcomes and changes nothing. -/
theorem opens_of_load {r : Except CommandError Project}
    (h : Disk.run (Project.load o) d = (r, d')) : d' = d ∧ Opens o d r := by
  unfold Project.load at h
  dsimp only at h
  replace h := (Quiet.isDirectory _).run_lift_bind h
  split at h
  · next hdirectory =>
    have hplace := (d.look_isDirectory o.root).1 hdirectory
    obtain ⟨cause, hload, rfl, rfl⟩ | ⟨loaded, hload, h⟩ :=
      (Quiet.loadConfig o.root).adapt_bind_cases h
    · exact ⟨rfl, .unconfigured hload⟩
    have hconfigured : Configured o d loaded := ⟨hplace, hload⟩
    obtain ⟨e, he, rfl, rfl⟩ | ⟨encoding, hencoding, h⟩ := Disk.run_except_cases h
    · obtain ⟨cause, hcause, rfl⟩ := exists_of_mapError he
      exact ⟨rfl, .unencoded hconfigured hcause⟩
    obtain ⟨e, he, rfl, rfl⟩ | ⟨registry, hregistry, h⟩ := Disk.run_except_cases h
    · obtain ⟨cause, hcause, rfl⟩ := exists_of_mapError he
      exact ⟨rfl, .unruly hconfigured hcause⟩
    replace h := (Quiet.discover _ _ _).run_lift_bind h
    split at h
    · next path hsources =>
      cases h
      exact ⟨rfl, .incomplete hconfigured hsources⟩
    · next sources hsources =>
      cases h
      exact ⟨rfl, .opened hconfigured (ok_of_mapError hencoding) (ok_of_mapError hregistry)
        hsources⟩
  · next hdirectory =>
    cases h
    refine ⟨rfl, .missing ?_⟩
    intro place hplace
    exact hdirectory ((d.look_isDirectory o.root).2 ⟨place, hplace⟩)

/-- The empty path leads nowhere, so no project is opened there. -/
theorem root_ne_empty_of_load (h : Disk.run (Project.load o) d = (.ok p, d')) :
    p.root.text ≠ "" := by
  intro hempty
  cases (opens_of_load h).2 with
  | opened hconfigured =>
    obtain ⟨place, hplace⟩ := hconfigured.directory
    have hmissing : d.find? o.root = none := by
      simp [Disk.find?, Disk.locate, Disk.locateNames, show o.root.text = "" from hempty]
    rw [hmissing] at hplace
    cases hplace

end Project

theorem Quiet.loadProject (o : ExtractOptions) : Quiet (Project.load o).run := by
  intro d
  obtain ⟨⟨r, d'⟩, hrun⟩ : ∃ out, Disk.run (Project.load o) d = out := ⟨_, rfl⟩
  rw [(Project.opens_of_load hrun).1] at hrun
  exact ⟨r, hrun⟩

end MessageHarvest
