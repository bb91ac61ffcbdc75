import MessageHarvest.Proofs.Files.Path
import MessageHarvest.Proofs.Sorted

/-! # What steps do to a disk

    Four steps change a disk, and each of them may be refused. This module
    says once what each can do, so that nothing else has to look inside them:

    * `alike_makeDirectory`: making a directory changes no file.
    * `write_cases`, `rename_cases`, `remove_cases`: the other steps change the
      files at the places that their paths lead to, or nothing.
    * `Alike`: what a sequence of steps leaves as it was. Places that could be
      reached can still be reached (`Alike.locate`). -/

namespace MessageHarvest.Disk

/-! ## Content -/

section Content

variable {d : Disk} {p q : Place} {c : Content}

/-- The content of the regular file at a place. -/
def file? (d : Disk) (p : Place) : Option Bytes :=
  match d.content? p with
  | some (.file bytes) => some bytes
  | _ => none

theorem ne_nil_of_content? (h : d.content? p ≠ some .directory) : p ≠ [] := by
  rintro rfl
  exact h rfl

theorem content?_put (hp : p ≠ []) :
    (d.put p c).content? q = if q = p then some c else d.content? q := by
  unfold content? put
  rw [Sorted.find?_insertWith]
  by_cases hq : q = p
  · subst hq
    cases hf : d.entries.find? q <;> simp [hp]
  · simp [hq]

theorem content?_erase (hp : p ≠ []) :
    (d.erase p).content? q = if q = p then none else d.content? q := by
  unfold content? erase
  rw [Sorted.find?_erase]
  by_cases hq : q = p
  · subst hq
    simp [hp]
  · simp [hq]

end Content

/-! ## Following names -/

section Follow

variable {d : Disk} {p q : Place}

theorem follow_append (d : Disk) (p : Place) (as bs : List (List Char)) :
    d.follow p (as ++ bs) = d.follow p as >>= fun q => d.follow q bs := by
  induction as generalizing p with
  | nil => rfl
  | cons a as ih =>
    rw [List.cons_append, follow, follow]
    split
    · rfl
    · rfl
    · split
      · rfl
      · exact ih _

/-- A name leads on from a directory only. -/
theorem follow_cons_eq_ok {name : List Char} {names : List (List Char)}
    (h : d.follow p (name :: names) = .ok q) :
    d.content? p = some .directory ∧ Text.byteLength name ≤ 255 ∧
      d.follow (step p name) names = .ok q := by
  rw [follow] at h
  split at h
  · cases h
  · cases h
  · next hp =>
    split at h
    · cases h
    · next hlen => exact ⟨hp, Nat.le_of_not_lt hlen, h⟩

theorem follow_cons {name : List Char} {names : List (List Char)}
    (hp : d.content? p = some .directory) (hname : Text.byteLength name ≤ 255) :
    d.follow p (name :: names) = d.follow (step p name) names := by
  rw [follow, hp]
  exact if_neg (Nat.not_lt.2 hname)

theorem follow_concat_eq_ok {name : List Char} {names : List (List Char)}
    (h : d.follow p (names ++ [name]) = .ok q) : ∃ r, q = step r name := by
  rw [follow_append] at h
  cases hr : d.follow p names with
  | error e => rw [hr] at h; cases h
  | ok r =>
    rw [hr] at h
    obtain ⟨-, -, h⟩ := follow_cons_eq_ok h
    cases h
    exact ⟨r, rfl⟩

/-- A name that is neither `.` nor `..` is the last one of its place. -/
theorem getLast?_step {name : List Char} (h : name ≠ ['.']) (h' : name ≠ ['.', '.']) :
    (step p name).getLast? = some (String.ofList name) := by
  simp [step, h, h']

/-- Where all directories are kept, names lead where they led. -/
theorem follow_mono {d' : Disk} {names : List (List Char)}
    (hd : ∀ r, d.content? r = some .directory → d'.content? r = some .directory)
    (h : d.follow p names = .ok q) : d'.follow p names = .ok q := by
  induction names generalizing p with
  | nil => exact h
  | cons name names ih =>
    obtain ⟨hp, hname, h⟩ := follow_cons_eq_ok h
    rw [follow_cons (hd p hp) hname]
    exact ih h

end Follow

/-! ## Locating paths -/

section Locate

variable {d : Disk} {p : Path} {q : Place}

/-- Where the names of a path start. -/
def origin (d : Disk) (p : Path) : Place := if p.isAbsolute then [] else d.here

theorem locateNames_eq_ok_iff {ns : List (List Char)} :
    d.locateNames p ns = .ok q ↔ p.text ≠ "" ∧ '\x00' ∉ p.text.toList ∧
      Text.byteLength p.text.toList ≤ 4095 ∧ d.follow (d.origin p) ns = .ok q := by
  unfold locateNames
  by_cases hempty : p.text = ""
  · simp [hempty]
  rw [if_neg hempty]
  by_cases hnul : p.text.toList.contains '\x00' = true
  · rw [if_pos hnul]
    have hmem : '\x00' ∈ p.text.toList := by simpa using hnul
    simp [hmem]
  rw [if_neg hnul]
  have hmem : '\x00' ∉ p.text.toList := by simpa using hnul
  by_cases hlong : Text.byteLength p.text.toList > 4095
  · rw [if_pos hlong]
    have hnot : ¬ Text.byteLength p.text.toList ≤ 4095 := by omega
    simp [hnot]
  · rw [if_neg hlong]
    have hshort : Text.byteLength p.text.toList ≤ 4095 := by omega
    simp [hempty, hmem, hshort, origin]

theorem locate_of_not_endsInSlash (h : endsInSlash p = false) : d.locate p = d.locateNew p := by
  rw [locate, h]
  rfl

end Locate

/-! ## What stays -/

/-- A disk on which nothing changed but the files at some places, and on which
    directories may have been made. -/
structure Alike (touched : Place → Prop) (d d' : Disk) : Prop where
  here : d'.here = d.here
  refuse : d'.refuse = d.refuse
  directories : ∀ q, d.content? q = some .directory → d'.content? q = some .directory
  files : ∀ q, ¬ touched q → d'.file? q = d.file? q

namespace Alike

variable {touched touched' : Place → Prop} {d d' d'' : Disk}

theorem refl (touched : Place → Prop) (d : Disk) : Alike touched d d :=
  ⟨rfl, rfl, fun _ h => h, fun _ _ => rfl⟩

theorem trans (h : Alike touched d d') (h' : Alike touched d' d'') : Alike touched d d'' where
  here := h'.here.trans h.here
  refuse := h'.refuse.trans h.refuse
  directories q hq := h'.directories q (h.directories q hq)
  files q hq := (h'.files q hq).trans (h.files q hq)

theorem mono (h : Alike touched d d') (ht : ∀ q, touched q → touched' q) : Alike touched' d d' :=
  ⟨h.here, h.refuse, h.directories, fun q hq => h.files q fun hq' => hq (ht q hq')⟩

theorem touched_of_ne (h : Alike touched d d') {q : Place} (hq : d'.file? q ≠ d.file? q) :
    touched q := by
  by_contra hn
  exact hq (h.files q hn)

/-- A path that led to a place leads there still. -/
theorem locateNames (h : Alike touched d d') {p : Path} {ns : List (List Char)} {q : Place}
    (hq : d.locateNames p ns = .ok q) : d'.locateNames p ns = .ok q := by
  obtain ⟨hempty, hnul, hsize, hfollow⟩ := locateNames_eq_ok_iff.1 hq
  have horigin : d'.origin p = d.origin p := by rw [origin, origin, h.here]
  refine locateNames_eq_ok_iff.2 ⟨hempty, hnul, hsize, ?_⟩
  rw [horigin]
  exact follow_mono h.directories hfollow

theorem locate (h : Alike touched d d') {p : Path} {q : Place} (hq : d.locate p = .ok q) :
    d'.locate p = .ok q :=
  h.locateNames hq

theorem locateNew (h : Alike touched d d') {p : Path} {q : Place} (hq : d.locateNew p = .ok q) :
    d'.locateNew p = .ok q :=
  h.locateNames hq

end Alike

/-- A file may be put where no directory is. -/
theorem alike_put {d : Disk} {p : Place} {bytes : Bytes} (hp : d.content? p ≠ some .directory) :
    Alike (· = p) d (d.put p (.file bytes)) where
  here := rfl
  refuse := rfl
  directories q hq := by
    have hne : q ≠ p := fun e => hp (e ▸ hq)
    rw [content?_put (ne_nil_of_content? hp), if_neg hne, hq]
  files q hq := by
    unfold file?
    rw [content?_put (ne_nil_of_content? hp), if_neg hq]

theorem alike_erase {d : Disk} {p : Place} (hp : d.content? p ≠ some .directory) :
    Alike (· = p) d (d.erase p) where
  here := rfl
  refuse := rfl
  directories q hq := by
    have hne : q ≠ p := fun e => hp (e ▸ hq)
    rw [content?_erase (ne_nil_of_content? hp), if_neg hne, hq]
  files q hq := by
    unfold file?
    rw [content?_erase (ne_nil_of_content? hp), if_neg hq]

/-! ## Steps -/

section Steps

variable {d d' : Disk} {p : Path}

/-- Making a directory changes no file. -/
theorem alike_makeDirectory (d : Disk) (p : Path) :
    Alike (fun _ => False) d (d.makeDirectoryAt p).2 := by
  unfold makeDirectoryAt
  split
  · exact .refl _ d
  · next place _ =>
    split
    · exact .refl _ d
    · next hnone =>
      have hcontent : d.content? place = none := by
        cases hc : d.content? place with
        | none => rfl
        | some c => simp [hc] at hnone
      have hne : place ≠ [] := by
        rintro rfl
        cases hcontent
      split
      · exact .refl _ d
      · refine ⟨rfl, rfl, fun q hq => ?_, fun q _ => ?_⟩
        · rw [content?_put hne]
          split
          · rfl
          · exact hq
        · unfold file?
          rw [content?_put hne]
          by_cases hq : q = place
          · rw [if_pos hq, hq, hcontent]
          · rw [if_neg hq]

/-- Writing puts a file at the place of the path, as a whole or broken off, or
    changes nothing. -/
theorem write_cases {bytes : Bytes} {r : Except IoError Unit}
    (h : d.writeAt p bytes = (r, d')) :
    (∃ e, r = .error e ∧ d' = d) ∨
      ∃ place, d.locateNew p = .ok place ∧ d.content? place ≠ some .directory ∧
        ((r = .ok () ∧ d' = d.put place (.file bytes)) ∨
          ∃ e part, r = .error e ∧ d' = d.put place (.file part)) := by
  unfold writeAt at h
  split at h
  · next e _ =>
    cases h
    exact .inl ⟨e, rfl, rfl⟩
  · next place hplace =>
    split at h
    · cases h
      exact .inl ⟨_, rfl, rfl⟩
    · next hdir =>
      rw [Bool.or_eq_true, not_or, decide_eq_true_eq] at hdir
      split at h
      · next refusal _ =>
        split at h
        · next part _ =>
          cases h
          exact .inr ⟨place, hplace, hdir.2, .inr ⟨_, part, rfl, rfl⟩⟩
        · cases h
          exact .inl ⟨_, rfl, rfl⟩
      · cases h
        exact .inr ⟨place, hplace, hdir.2, .inl ⟨rfl, rfl⟩⟩

/-- Renaming moves a file to a place whose path ends in a name, or changes
    nothing. -/
theorem rename_cases {target : Path} {r : Except IoError Unit}
    (h : d.renameAt p target = (r, d')) :
    (∃ e, r = .error e ∧ d' = d) ∨
      ∃ old new bytes name, r = .ok () ∧ d.locate p = .ok old ∧ d.locateNew target = .ok new ∧
        d.content? old = some (.file bytes) ∧ d.content? new ≠ some .directory ∧
        (names target.text.toList).getLast? = some name ∧ name ≠ ['.'] ∧ name ≠ ['.', '.'] ∧
        endsInSlash target = false ∧ d' = (d.erase old).put new (.file bytes) := by
  unfold renameAt at h
  split at h
  · cases h; exact .inl ⟨_, rfl, rfl⟩
  · cases h; exact .inl ⟨_, rfl, rfl⟩
  · next old new hold hnew =>
    split at h
    · cases h; exact .inl ⟨_, rfl, rfl⟩
    · cases h; exact .inl ⟨_, rfl, rfl⟩
    · next bytes hbytes =>
      dsimp only at h
      split at h
      · cases h; exact .inl ⟨_, rfl, rfl⟩
      · next hlast =>
        split at h
        · cases h; exact .inl ⟨_, rfl, rfl⟩
        · next hslash =>
          split at h
          · cases h; exact .inl ⟨_, rfl, rfl⟩
          · next hdir =>
            split at h
            · cases h; exact .inl ⟨_, rfl, rfl⟩
            · cases h
              cases hname : (names target.text.toList).getLast? with
              | none => simp [hname] at hlast
              | some name =>
                simp only [hname, Bool.or_eq_true, decide_eq_true_eq, not_or,
                  Option.some.injEq] at hlast
                exact .inr ⟨old, new, bytes, name, rfl, hold, hnew, hbytes, hdir, rfl,
                  hlast.1.2, hlast.2, by simpa using hslash, rfl⟩

/-- Removing takes a file away, unless there is none or it is refused. -/
theorem remove_cases {r : Except IoError Unit} (h : d.removeAt p = (r, d')) :
    (d' = d ∧ ∀ place, d.locate p = .ok place → d.refuse (.remove place) = none →
        d.file? place = none) ∨
      ∃ place, d.locate p = .ok place ∧ d.content? place ≠ some .directory ∧
        d' = d.erase place := by
  unfold removeAt at h
  split at h
  · next e he =>
    cases h
    refine .inl ⟨rfl, fun q hq _ => ?_⟩
    rw [he] at hq
    cases hq
  · next place hplace =>
    -- what is left where it was is no file, or was refused to go
    have hstays : (d.refuse (.remove place) = none → d.file? place = none) →
        ∀ q, d.locate p = .ok q → d.refuse (.remove q) = none → d.file? q = none := by
      intro hnone q hq
      rw [hplace] at hq
      cases hq
      exact hnone
    split at h
    · next hnone =>
      cases h
      exact .inl ⟨rfl, hstays fun _ => by rw [file?, hnone]⟩
    · next hdir =>
      cases h
      exact .inl ⟨rfl, hstays fun _ => by rw [file?, hdir]⟩
    · next bytes hfile =>
      split at h
      · next refusal hrefuse =>
        cases h
        refine .inl ⟨rfl, hstays fun hnone => ?_⟩
        rw [hrefuse] at hnone
        cases hnone
      · cases h
        exact .inr ⟨place, hplace, by simp [hfile], rfl⟩

end Steps

end MessageHarvest.Disk
