import MessageHarvest.Catalog.File
import MessageHarvest.Proofs.Files.Disk
import MessageHarvest.Proofs.Files.Looking

/-! # What saving a catalog does to a disk

    A catalog is saved in three steps: its bytes are made, then the directory
    for it, then the file is replaced by way of its temporary file. Each may
    fail, and `save_cases` says what is left then.

    * `temporary_ne`: the temporary file is never the catalog itself.
    * `replaceFile_error`: a failed replacement touches the temporary file only,
      and leaves none behind if it can be removed.
    * `replaceFile_ok`: a replacement leaves the bytes at the path of the
      catalog and no temporary file. -/

namespace MessageHarvest

open Disk (Alike)

/-! ## The temporary file -/

namespace Catalog

section Temporary

variable {d : Disk} {path : Path}

/-- The name of the temporary file of a catalog. -/
def temporaryName (path : Path) : String := "." ++ path.fileName?.getD "" ++ ".tmp"

theorem toList_temporaryName (path : Path) :
    (temporaryName path).toList = '.' :: (path.fileName?.getD "").toList ++ ".tmp".toList := by
  simp [temporaryName]

theorem temporaryName_plain (path : Path) : Path.Plain (temporaryName path) := by
  have hslash : '/' ∉ (path.fileName?.getD "").toList := by
    cases h : path.fileName? with
    | none => simp
    | some n => exact Path.not_mem_of_fileName? h
  have hlen : 5 ≤ (temporaryName path).toList.length := by
    simp [toList_temporaryName]
  refine ⟨?_, ?_, ?_, ?_⟩
  · intro e; simp [e] at hlen
  · intro e; simp [e] at hlen
  · intro e; simp [e] at hlen
  · simp [toList_temporaryName, hslash]

theorem temporary_eq_child (path : Path) :
    ∃ q : Path, temporary path = q.child (temporaryName path) := by
  unfold temporary Path.withFileName
  split
  · next q _ _ => exact ⟨q, rfl⟩
  · exact ⟨path, rfl⟩

/-- The path of a temporary file ends in its name. -/
theorem getLast?_names_temporary (path : Path) :
    (Disk.names (temporary path).text.toList).getLast? = some (temporaryName path).toList := by
  obtain ⟨q, hq⟩ := temporary_eq_child path
  have hplain := temporaryName_plain path
  rw [hq, Path.child, Disk.names_join hplain.isAbsolute, hplain.names, List.getLast?_concat]

theorem endsInSlash_temporary (path : Path) : Disk.endsInSlash (temporary path) = false := by
  obtain ⟨q, hq⟩ := temporary_eq_child path
  have hrelative := (temporaryName_plain path).isAbsolute
  have hlast : (temporary path).text.toList.getLast? = some 'p' := by
    rw [hq, Path.child]
    have hname : (temporaryName path).toList.getLast? = some 'p' := by
      rw [toList_temporaryName, List.getLast?_append]
      rfl
    by_cases he : q.text = ""
    · rw [Path.text_join_empty hrelative he, hname]
    · rcases Path.text_join hrelative he with ⟨s, -, h⟩ | h <;>
        simp [h, List.getLast?_append, List.getLast?_cons, hname]
  rw [Disk.endsInSlash, hlast]
  rfl

theorem locate_temporary (d : Disk) (path : Path) :
    d.locate (temporary path) = d.locateNew (temporary path) :=
  Disk.locate_of_not_endsInSlash (endsInSlash_temporary path)

/-- The temporary file never takes the place of the catalog, since its name is
    longer. -/
theorem temporary_ne {name : List Char} {place temp : Place}
    (hname : (Disk.names path.text.toList).getLast? = some name) (hcurrent : name ≠ ['.'])
    (hparent : name ≠ ['.', '.']) (hplace : d.locateNew path = .ok place)
    (htemp : d.locateNew (temporary path) = .ok temp) : place ≠ temp := by
  -- a path that ends in a name leads to a place that ends in it
  have hends : ∀ {p : Path} {n : List Char} {q : Place},
      (Disk.names p.text.toList).getLast? = some n → n ≠ ['.'] → n ≠ ['.', '.'] →
      d.locateNew p = .ok q → q.getLast? = some (String.ofList n) := by
    intro p n q hn hc hp hq
    obtain ⟨ns, hns⟩ := List.getLast?_eq_some_iff.1 hn
    obtain ⟨-, -, -, hfollow⟩ := Disk.locateNames_eq_ok_iff.1 hq
    rw [hns] at hfollow
    obtain ⟨r, hr⟩ := Disk.follow_concat_eq_ok hfollow
    rw [hr]
    exact Disk.getLast?_step hc hp
  have hplain := temporaryName_plain path
  have hlast := hends hname hcurrent hparent hplace
  have hlast' := hends (getLast?_names_temporary path) hplain.ne_current hplain.ne_parent htemp
  have hfile := Path.fileName?_of_getLast?_names hname hcurrent hparent
  intro he
  rw [he, hlast', Option.some.injEq, String.ofList_toList] at hlast
  have hlen := congrArg (fun n => n.toList.length) hlast
  simp only [toList_temporaryName, hfile, Option.getD_some, String.toList_ofList,
    List.length_append, List.length_cons] at hlen
  omega

end Temporary

/-! ## Replacing a file -/

section Replace

variable {d d' : Disk} {path : Path} {bytes : Bytes}

/-- All that replacing a file can do: both steps are done, or one of them fails
    and the temporary file is removed. -/
theorem replaceFile_cases {r : Except IoError Unit}
    (h : (replaceFile path bytes : StateM Disk _).run d = (r, d')) :
    (∃ written, r = .ok () ∧ d.writeAt (temporary path) bytes = (.ok (), written) ∧
        written.renameAt (temporary path) path = (.ok (), d')) ∨
      ∃ e broken removed, r = .error e ∧ broken.removeAt (temporary path) = (removed, d') ∧
        (d.writeAt (temporary path) bytes = (.error e, broken) ∨
          ∃ written, d.writeAt (temporary path) bytes = (.ok (), written) ∧
            written.renameAt (temporary path) path = (.error e, broken)) := by
  cases hwrite : d.writeAt (temporary path) bytes with
  | mk w written =>
    have hw : (FileSystem.write (temporary path) bytes : StateM Disk _).run d = (w, written) :=
      hwrite
    rw [replaceFile, run_bind_of_run hw] at h
    cases w with
    | error e =>
      cases h
      exact .inr ⟨e, written, _, rfl, rfl, .inl rfl⟩
    | ok u =>
      cases hrename : written.renameAt (temporary path) path with
      | mk w moved =>
        have hr : (FileSystem.rename (temporary path) path : StateM Disk _).run written =
          (w, moved) := hrename
        rw [run_bind_of_run hr] at h
        cases w with
        | error e =>
          cases h
          exact .inr ⟨e, moved, _, rfl, rfl, .inr ⟨written, rfl, hrename⟩⟩
        | ok u =>
          cases h
          exact .inl ⟨written, rfl, rfl, hrename⟩

/-- The disk on which only the temporary file of a catalog may have changed. -/
abbrev AlikeBut (path : Path) (d d' : Disk) : Prop :=
  Alike (fun q => d'.locate (temporary path) = .ok q) d d'

/-- Writing touches no other file than the temporary one. -/
theorem alike_write_temporary {r : Except IoError Unit}
    (h : d.writeAt (temporary path) bytes = (r, d')) : AlikeBut path d d' := by
  rcases Disk.write_cases h with ⟨e, -, rfl⟩ | ⟨place, hplace, hdir, hput⟩
  · exact .refl _ d'
  · have hput : ∃ part, d' = d.put place (.file part) := by
      rcases hput with ⟨-, rfl⟩ | ⟨e, part, -, rfl⟩
      · exact ⟨bytes, rfl⟩
      · exact ⟨part, rfl⟩
    obtain ⟨part, rfl⟩ := hput
    have halike : Alike (· = place) d (d.put place (.file part)) := Disk.alike_put hdir
    refine halike.mono fun q hq => ?_
    rw [hq, locate_temporary]
    exact halike.locateNew hplace

/-- Removing touches no other file than the temporary one, which is gone
    afterwards if it may be removed. -/
theorem alike_remove_temporary {r : Except IoError Unit}
    (h : d.removeAt (temporary path) = (r, d')) :
    AlikeBut path d d' ∧ ∀ q, d'.locate (temporary path) = .ok q →
      d.refuse (.remove q) = none → d'.file? q = none := by
  rcases Disk.remove_cases h with ⟨rfl, hnone⟩ | ⟨place, hplace, hdir, rfl⟩
  · exact ⟨.refl _ _, hnone⟩
  · have halike := Disk.alike_erase hdir
    have hlocate : (d.erase place).locate (temporary path) = .ok place := halike.locate hplace
    refine ⟨halike.mono fun q hq => ?_, fun q hq _ => ?_⟩
    · rw [hq]
      exact hlocate
    · rw [hlocate] at hq
      cases hq
      rw [Disk.file?, Disk.content?_erase (Disk.ne_nil_of_content? hdir), if_pos rfl]

/-- A failed replacement touches the temporary file only, and there is none
    afterwards if it may be removed. -/
theorem replaceFile_error {e : IoError}
    (h : (replaceFile path bytes : StateM Disk _).run d = (.error e, d')) :
    AlikeBut path d d' ∧
      ∀ q, d'.locate (temporary path) = .ok q → d'.refuse (.remove q) = none →
        d'.file? q = none := by
  rcases replaceFile_cases h with ⟨written, hr, -⟩ | ⟨e', broken, removed, -, hremove, hbroken⟩
  · cases hr
  · -- up to the failure no other file is touched, since a failed move changes nothing
    have hbefore : AlikeBut path d broken := by
      rcases hbroken with hwrite | ⟨written, hwrite, hrename⟩
      · exact alike_write_temporary hwrite
      · rcases Disk.rename_cases hrename with ⟨-, -, rfl⟩ | ⟨-, -, -, -, hr, -⟩
        · exact alike_write_temporary hwrite
        · cases hr
    obtain ⟨hafter, hgone⟩ := alike_remove_temporary hremove
    refine ⟨?_, ?_⟩
    · exact (hbefore.mono fun q hq => hafter.locate hq).trans hafter
    · intro q hq hrefuse
      exact hgone q hq (hafter.refuse ▸ hrefuse)

/-- A replacement leaves the bytes at the path, and no temporary file. -/
theorem replaceFile_ok (h : (replaceFile path bytes : StateM Disk _).run d = (.ok (), d')) :
    ∃ place temp, d'.locate path = .ok place ∧ d'.locate (temporary path) = .ok temp ∧
      d'.content? place = some (.file bytes) ∧ d'.content? temp = none ∧
      Alike (fun q => q = place ∨ q = temp) d d' := by
  rcases replaceFile_cases h with ⟨written, -, hwrite, hrename⟩ | ⟨e, -, -, hr, -⟩
  · rcases Disk.write_cases hwrite with ⟨e, he, -⟩ | ⟨temp, htemp, hdir, hput⟩
    · cases he
    · have hwritten : written = d.put temp (.file bytes) := by
        rcases hput with ⟨-, hput⟩ | ⟨e, -, he, -⟩
        · exact hput
        · cases he
      rcases Disk.rename_cases hrename with ⟨e, he, -⟩ |
        ⟨old, place, moved, name, -, hold, hplace, hmoved, hdir', hname, hcurrent, hparent,
          hslash, rfl⟩
      · cases he
      · -- what is moved is what was written
        have hadd : Alike (· = temp) d written := by
          rw [hwritten]
          exact Disk.alike_put hdir
        have htemp' : written.locate (temporary path) = .ok temp := by
          rw [locate_temporary]
          exact hadd.locateNew htemp
        have hold' : old = temp := by
          rw [htemp'] at hold
          cases hold
          rfl
        subst hold'
        have hnil := Disk.ne_nil_of_content? hdir
        have hbytes : moved = bytes := by
          rw [hwritten, Disk.content?_put hnil, if_pos rfl] at hmoved
          cases hmoved
          rfl
        subst hbytes
        have hne : place ≠ old :=
          temporary_ne hname hcurrent hparent hplace (locate_temporary _ _ ▸ htemp')
        have herase : Alike (· = old) written (written.erase old) :=
          Disk.alike_erase (by simp [hmoved])
        have hdir'' : (written.erase old).content? place ≠ some .directory := by
          rw [Disk.content?_erase hnil, if_neg hne]
          exact hdir'
        have hnil' := Disk.ne_nil_of_content? hdir''
        have hmove : Alike (· = place) (written.erase old)
            ((written.erase old).put place (.file moved)) := Disk.alike_put hdir''
        refine ⟨place, old, ?_, ?_, ?_, ?_, ?_⟩
        · rw [Disk.locate_of_not_endsInSlash hslash]
          exact hmove.locateNew (herase.locateNew hplace)
        · exact hmove.locate (herase.locate htemp')
        · rw [Disk.content?_put hnil', if_pos rfl]
        · rw [Disk.content?_put hnil', if_neg hne.symm, Disk.content?_erase hnil, if_pos rfl]
        · refine ((hadd.mono ?_).trans (herase.mono ?_)).trans (hmove.mono ?_)
          · exact fun q hq => .inr hq
          · exact fun q hq => .inr hq
          · exact fun q hq => .inl hq
  · cases hr

end Replace

end Catalog

/-! ## Making room -/

/-- A computation that makes directories and changes no file. -/
def Gentle {α : Type} (x : StateM Disk α) : Prop := ∀ d, Alike (fun _ => False) d (x.run d).2

namespace Gentle

variable {α β : Type}

theorem of_quiet {x : StateM Disk α} (hx : Quiet x) : Gentle x := by
  intro d
  obtain ⟨a, ha⟩ := hx d
  rw [show x.run d = (a, d) from ha]
  exact .refl _ d

theorem bind {x : StateM Disk α} {f : α → StateM Disk β} (hx : Gentle x) (hf : ∀ a, Gentle (f a)) :
    Gentle (x >>= f) := by
  intro d
  have hfirst := hx d
  have hrest := hf (x.run d).1 (x.run d).2
  rw [run_bind_of_run (rfl : x.run d = ((x.run d).1, (x.run d).2))]
  exact hfirst.trans hrest

theorem makeDirectory (p : Path) : Gentle (FileSystem.makeDirectory p) :=
  fun d => Disk.alike_makeDirectory d p

theorem orThere (p : Path) (made : Except IoError Unit) :
    Gentle (FileSystem.makeNested.orThere p made) := by
  cases made with
  | ok u => exact of_quiet (.pure _)
  | error e =>
    refine of_quiet ((Quiet.isDirectory p).bind fun b => ?_)
    split
    · exact .pure _
    · exact .pure _

/-- A directory is made after the ones above it. -/
theorem makeNested (ps : List Path) : Gentle (FileSystem.makeNested ps) := by
  induction ps with
  | nil => exact of_quiet (.pure _)
  | cons p above ih =>
    rw [FileSystem.makeNested]
    split
    · exact of_quiet (.pure _)
    · refine (makeDirectory p).bind fun made => ?_
      split
      · exact of_quiet (.pure _)
      · refine ih.bind fun rest => ?_
        split
        · exact of_quiet (.pure _)
        · exact (makeDirectory p).bind fun made => orThere p made
      · exact orThere p _

end Gentle

namespace Catalog

section Save

variable {d d' : Disk} {path : Path} {encoding : Encoding} {store : Store} {header : Header}

/-- Making room for a catalog makes directories only, and a failure is not about
    the catalog itself. -/
theorem makeRoom_cases {r : Except CatalogError Unit} (h : Disk.run (makeRoom path) d = (r, d')) :
    Alike (fun _ => False) d d' ∧ ∀ io, r ≠ .error (.inaccessible path io) := by
  unfold makeRoom at h
  split at h
  · next parent hparent =>
    split at h
    · cases h
      exact ⟨.refl _ d, by simp⟩
    · obtain ⟨w, hw, rfl⟩ := Disk.run_attempt_cases h
      refine ⟨?_, ?_⟩
      · have hgentle := Gentle.makeNested parent.ancestors d
        rw [show (FileSystem.makeNested parent.ancestors : StateM Disk _).run d = (w, d') from hw]
          at hgentle
        exact hgentle
      · intro io he
        -- the path of the directory is shorter than the one of the catalog
        have hshorter := Path.length_parent?_lt hparent
        cases w with
        | ok u => cases he
        | error e =>
          cases he
          omega
  · cases h
    exact ⟨.refl _ d, by simp⟩

/-- A disk on which some bytes were saved at a path: they are there, the
    temporary file is not, and all other files are as they were. -/
structure Saved (path : Path) (bytes : Bytes) (d d' : Disk) : Prop where
  written : ∃ place, d'.find? path = some (place, .file bytes)
  cleared : ∃ temp, d'.locate (temporary path) = .ok temp ∧ d'.content? temp = none
  others : ∀ q, d'.file? q ≠ d.file? q →
    d'.locate path = .ok q ∨ d'.locate (temporary path) = .ok q

theorem saved_of_replaceFile {bytes : Bytes} {d₁ : Disk} (hd : Alike (fun _ => False) d d₁)
    (h : (replaceFile path bytes : StateM Disk _).run d₁ = (.ok (), d')) :
    Saved path bytes d d' := by
  obtain ⟨place, temp, hplace, htemp, hcontent, hgone, halike⟩ := replaceFile_ok h
  have hboth := (hd.mono fun q hq => hq.elim).trans halike
  refine ⟨⟨place, ?_⟩, ⟨temp, htemp, hgone⟩, ?_⟩
  · rw [Disk.find?, hplace]
    simp [hcontent]
  · intro q hq
    rcases hboth.touched_of_ne hq with rfl | rfl
    · exact .inl hplace
    · exact .inr htemp

/-- All that saving a catalog can do: fail before the catalog is touched, fail
    to replace it, or save it. -/
theorem save_cases {r : Except CatalogError Unit}
    (h : Disk.run (save path encoding store header) d = (r, d')) :
    (∃ e, r = .error e ∧ (∀ io, e ≠ .inaccessible path io) ∧ Alike (fun _ => False) d d') ∨
      (∃ io, r = .error (.inaccessible path io) ∧ AlikeBut path d d' ∧
        ∀ q, d'.locate (temporary path) = .ok q → d'.refuse (.remove q) = none →
          d'.file? q = none) ∨
      ∃ bytes, r = .ok () ∧ encoding.encode? (render store header encoding.name) = some bytes ∧
        Saved path bytes d d' := by
  rcases Disk.run_except_cases h with ⟨e, he, rfl, rfl⟩ | ⟨bytes, hbytes, hrest⟩
  · refine .inl ⟨e, rfl, ?_, .refl _ d'⟩
    unfold encode at he
    split at he
    · cases he
      simp
    · cases he
  · have hsome : encoding.encode? (render store header encoding.name) = some bytes := by
      unfold encode at hbytes
      split at hbytes
      · cases hbytes
      · next hsome =>
        cases hbytes
        exact hsome
    rcases Disk.run_bind_cases hrest with ⟨e, he, rfl⟩ | ⟨u, d₁, hroom, hreplace⟩
    · obtain ⟨halike, hother⟩ := makeRoom_cases he
      exact .inl ⟨e, rfl, fun io hio => hother io (congrArg _ hio), halike⟩
    · obtain ⟨halike, -⟩ := makeRoom_cases hroom
      obtain ⟨w, hw, rfl⟩ := Disk.run_attempt_cases hreplace
      cases w with
      | error io =>
        obtain ⟨hbut, hgone⟩ := replaceFile_error hw
        exact .inr (.inl ⟨io, rfl, (halike.mono fun q hq => hq.elim).trans hbut, hgone⟩)
      | ok u => exact .inr (.inr ⟨bytes, rfl, hsome, saved_of_replaceFile halike hw⟩)

end Save

end Catalog

end MessageHarvest
