import MessageHarvest.Command.Run
import MessageHarvest.Proofs.Catalog.Saving
import MessageHarvest.Proofs.Extraction.Opening

/-! # What an extraction writes

    An extraction looks at the project first and writes last. Everything that
    it does before the catalog is saved is quiet, so a failure on the way there
    leaves the disk as it is; and what saving can do is known from
    `Catalog.save_cases`.

    * `extract_cases`: an extraction fails without a trace, or comes to save
      the store that the fresh messages and the catalog of the run before give.
    * `contained_extract`: for every disk, whatever steps it refuses, the files
      that change are the catalog and its temporary file, and the catalog
      changes only if the whole extraction succeeds. -/

namespace MessageHarvest

open Catalog (temporary render Saved)

/-! ## Everything before saving is quiet -/

namespace Quiet

theorem scanFile (p : Project) (file : Path) : Quiet (p.scanFile file).run :=
  (attempt (readText file) _).bindE fun _ => pure _

theorem fresh (p : Project) : Quiet p.fresh.run :=
  (mapME (scanFile p) _).bindE fun _ => pure _

theorem loadCatalog (path : Path) (encoding : Encoding) : Quiet (Catalog.load path encoding).run :=
  (attempt (read path) _).bindE fun _ => pure _

theorem previous (p : Project) : Quiet p.previous.run := by
  refine (lift (isThere _)).bindE fun there => ?_
  split
  · exact (loadCatalog _ _).bindE fun _ => pure _
  · exact pure _

end Quiet

/-! ## Extractions -/

section Extract

variable {d d' : Disk} {p : Project} {dryRun : Bool}

/-- What an extraction has found out when it comes to save its catalog: the
    messages of the sources and those of the catalog that is there. -/
structure Prepared (p : Project) (d : Disk) (fresh : Store) (previous : Option Store) : Prop where
  fresh : Disk.run p.fresh d = (.ok fresh, d)
  previous : Disk.run p.previous d = (.ok previous, d)

/-- All that an extraction can do: fail without a trace, or save the reconciled
    store, which a dry run leaves out. -/
theorem extract_cases {r : Except CommandError Extraction}
    (h : Disk.run (p.extract dryRun) d = (r, d')) :
    (∃ e, r = .error e ∧ d' = d ∧ ∀ path cause, e ≠ .unwritten path cause) ∨
      ∃ fresh previous done, Prepared p d fresh previous ∧
        ((dryRun = true ∧ d' = d ∧ r = .ok done) ∨
          ∃ w, dryRun = false ∧
            Disk.run (Catalog.save p.output p.encoding (fresh.reconcile previous p.removeUnused).1
              p.config.header) d = (w, d') ∧
            r = (w.mapError (.unwritten p.output)).map fun _ => done) := by
  rcases (Quiet.fresh p).adapt_bind_cases h with ⟨e, -, rfl, rfl⟩ | ⟨fresh, hfresh, hrest⟩
  · exact .inl ⟨_, rfl, rfl, by simp⟩
  · rcases (Quiet.previous p).adapt_bind_cases hrest with
      ⟨e, -, rfl, rfl⟩ | ⟨previous, hprevious, hsave⟩
    · exact .inl ⟨_, rfl, rfl, by simp⟩
    · let outcome := fresh.reconcile previous p.removeUnused
      refine .inr ⟨fresh, previous, ⟨outcome.1, outcome.2, !dryRun⟩, ⟨hfresh, hprevious⟩, ?_⟩
      cases dryRun with
      | true =>
        cases hsave
        exact .inl ⟨rfl, rfl, rfl⟩
      | false =>
        rcases Disk.run_bind_cases hsave with ⟨e, he, rfl⟩ | ⟨u, d₁, hu, hdone⟩
        · obtain ⟨w, hw, hmap⟩ := Disk.run_adapt_cases he
          exact .inr ⟨w, rfl, hw, by rw [← hmap]; rfl⟩
        · obtain ⟨w, hw, hmap⟩ := Disk.run_adapt_cases hu
          cases hdone
          exact .inr ⟨w, rfl, hw, by rw [← hmap]; rfl⟩

end Extract

/-! ## The command -/

/-- A project that cannot be opened has not been written. -/
theorem ne_unwritten_of_load {o : ExtractOptions} {d d' : Disk} {e : CommandError}
    (h : Disk.run (Project.load o) d = (.error e, d')) (path : Path) (cause : CatalogError) :
    e ≠ .unwritten path cause := by
  cases (Project.opens_of_load h).2 <;> simp

/-- What the command leaves of a disk, given its outcome.

    * A dry run changes nothing.
    * After a failure only the temporary file of the catalog may differ. If
      the catalog could not be replaced, which is the only failure to access
      the catalog itself, then there is no temporary file, unless it may not be
      removed.
    * After a success the catalog holds the text of the reconciled store. -/
structure Contained (o : ExtractOptions) (d : Disk) (r : Except CommandError Report) (d' : Disk) :
    Prop where
  dry : o.dryRun = true → d' = d
  failed : ∀ e, r = .error e →
    (∀ q, d'.file? q ≠ d.file? q → ∃ p : Project, Disk.run (Project.load o) d = (.ok p, d) ∧
      d'.locate (temporary p.output) = .ok q) ∧
    ∀ path io, e = .unwritten path (.inaccessible path io) →
      ∀ q, d'.locate (temporary path) = .ok q → d'.refuse (.remove q) = none → d'.file? q = none
  succeeded : ∀ report, r = .ok report → o.dryRun = false →
    ∃ (p : Project) (fresh : Store) (previous : Option Store) (bytes : Bytes),
      Disk.run (Project.load o) d = (.ok p, d) ∧ Prepared p d fresh previous ∧
      p.encoding.encode? (render (fresh.reconcile previous p.removeUnused).1 p.config.header
        p.encoding.name) = some bytes ∧
      Saved p.output bytes d d'

theorem Contained.untouched {o : ExtractOptions} {d : Disk} {e : CommandError}
    (he : ∀ path cause, e ≠ .unwritten path cause) : Contained o d (.error e) d where
  dry _ := rfl
  failed := by
    intro e' h
    cases h
    refine ⟨fun q hq => absurd rfl hq, fun path io h => absurd h (he path _)⟩
  succeeded := by
    intro report h
    cases h

/-- The end of an extraction that is no dry run is the end of saving. -/
theorem contained_of_save {o : ExtractOptions} {d d' : Disk} {p : Project} {fresh : Store}
    {previous : Option Store} {w : Except CatalogError Unit} (report : Report)
    (hp : Disk.run (Project.load o) d = (.ok p, d)) (hprepared : Prepared p d fresh previous)
    (hdry : o.dryRun = false)
    (hw : Disk.run (Catalog.save p.output p.encoding (fresh.reconcile previous p.removeUnused).1
      p.config.header) d = (w, d')) :
    Contained o d ((w.mapError (.unwritten p.output)).map fun _ => report) d' := by
  have hnot : o.dryRun = true → d' = d := by
    intro h
    rw [hdry] at h
    cases h
  rcases Catalog.save_cases hw with ⟨e, rfl, hother, halike⟩ | ⟨io, rfl, halike, hgone⟩ |
    ⟨bytes, rfl, hbytes, hsaved⟩
  · -- the catalog was not touched, so it is not what could not be accessed
    refine ⟨hnot, ?_, fun report h => (by cases h)⟩
    intro e' he'
    cases he'
    refine ⟨fun q hq => (halike.touched_of_ne hq).elim, ?_⟩
    intro path io h
    cases h
    exact absurd rfl (hother io)
  · refine ⟨hnot, ?_, fun report h => (by cases h)⟩
    intro e' he'
    cases he'
    refine ⟨fun q hq => ⟨p, hp, halike.touched_of_ne hq⟩, ?_⟩
    intro path io' h
    cases h
    exact hgone
  · refine ⟨hnot, fun e he => (by cases he), ?_⟩
    intro _ _ _
    exact ⟨p, fresh, previous, bytes, hp, hprepared, hbytes, hsaved⟩

/-- Nothing but the temporary file is touched unless the whole extraction
    succeeds. -/
theorem contained_extract (o : ExtractOptions) (d : Disk) :
    Contained o d (Disk.run (Command.run (.extract o)) d).1
      (Disk.run (Command.run (.extract o)) d).2 := by
  obtain ⟨⟨r, d'⟩, hrun⟩ : ∃ out, Disk.run (Command.run (.extract o)) d = out := ⟨_, rfl⟩
  rw [hrun]
  dsimp only
  rcases Disk.run_bind_cases hrun with ⟨e, he, rfl⟩ | ⟨p, d₁, hp, hrest⟩
  · have hd : d' = d := (Quiet.loadProject o).run_eq he
    subst hd
    exact .untouched (ne_unwritten_of_load he)
  · have hd₁ : d₁ = d := (Quiet.loadProject o).run_eq hp
    subst hd₁
    -- the report on an extraction neither fails nor looks at the disk
    obtain ⟨w, hw, hreport⟩ : ∃ w, Disk.run (p.extract o.dryRun) d₁ = (w, d') ∧
        r = w.map (Report.ofExtraction p) := by
      rcases Disk.run_bind_cases hrest with ⟨e, he, rfl⟩ | ⟨done, d₂, hdone, hreturn⟩
      · exact ⟨_, he, rfl⟩
      · cases hreturn
        exact ⟨_, hdone, rfl⟩
    subst hreport
    rcases extract_cases hw with ⟨e, rfl, rfl, he⟩ | ⟨fresh, previous, done, hprepared, hend⟩
    · exact .untouched he
    · rcases hend with ⟨hdry, rfl, rfl⟩ | ⟨v, hdry, hv, rfl⟩
      · refine ⟨fun _ => rfl, fun e he => (by cases he), ?_⟩
        intro _ _ hwet
        rw [hdry] at hwet
        cases hwet
      · have hcontained := contained_of_save (.ofExtraction p done) hp hprepared hdry hv
        cases v with
        | error e => exact hcontained
        | ok u => exact hcontained

-- a write that breaks off leaves the catalog alone and no temporary file behind
example :
    let d : Disk :=
      { (Disk.empty.install ["src", "main", "java"] .directory).put ["a.pot"] (.file []) with
        refuse := fun
          | .write _ => some ⟨.busy, some [0x23]⟩
          | _ => none }
    let o : ExtractOptions := { output? := some ⟨"a.pot"⟩ }
    (Disk.run (Command.run (.extract o)) d).1.isOk = false ∧
      (Disk.run (Command.run (.extract o)) d).2.files = d.files := by
  decide +kernel

end MessageHarvest
