import MessageHarvest.Proofs.Files.Path
import MessageHarvest.Proofs.Text.Trimming

/-! # Relative paths and the files they stand for

    A relative path is spelled from the components that a file has beyond its
    root. Nothing is lost on the way, since a component other than the first
    one of a path is read back from its spelling, wherever it stands
    (`Component.Inner`).

    * `components_relativeTo`: below every root, the relative path has exactly
      the components that were added, except a `.`.
    * `components_descend_split`: a text that is split and put below a root part
      by part adds the components that it has.
    * `retraces`: so the relative path leads from the root back to the file.

    Only the empty path has no components, so only below it can the `.` or the
    slash that a path starts with be among what was added (`added_cases`). -/

namespace MessageHarvest.Path

variable {p q root : Path} {c : Component} {cs ds : List Component} {t : List Char}

/-! ## Components that can stand anywhere -/

/-- A component that is spelled in one part and read back from it. -/
structure Component.Inner (c : Component) : Prop where
  no_slash : '/' ∉ c.name.toList
  read : Component.ofPart? c.name.toList = some c

theorem Component.Inner.ne_nil (h : c.Inner) : c.name.toList ≠ [] := by
  intro hname
  have hread := h.read
  rw [hname] at hread
  cases hread

theorem Component.Inner.ne_dot (h : c.Inner) : c.name.toList ≠ ['.'] := by
  intro hname
  have hread := h.read
  rw [hname] at hread
  cases hread

theorem Component.Inner.ne_current (h : c.Inner) : c ≠ .current := by
  intro hc
  subst hc
  exact h.ne_dot rfl

theorem Component.name_of_ofPart? {part : List Char} (h : Component.ofPart? part = some c) :
    c.name.toList = part := by
  unfold Component.ofPart? at h
  split at h
  · cases h
  · split at h
    · next hparent =>
      cases h
      exact hparent.symm
    · cases h
      exact String.toList_ofList

theorem inner_of_mem_solid (h : c ∈ solid t) : c.Inner := by
  obtain ⟨part, hpart, hc⟩ := List.mem_filterMap.1 h
  have hname := Component.name_of_ofPart? hc
  constructor
  · rw [hname]
    exact not_mem_of_mem_parts hpart
  · rw [hname]
    exact hc

theorem lead_cases (p : Path) : p.lead = [] ∨ ∃ c, p.lead = [c] := by
  unfold lead
  by_cases habsolute : p.isAbsolute = true
  · simp [habsolute]
  · by_cases hdot : (parts p.text.toList).head? = some ['.'] <;> simp [habsolute, hdot]

/-- Only the first component depends on where it stands. -/
theorem inner_of_mem_tail (h : c ∈ p.components.tail) : c.Inner := by
  apply inner_of_mem_solid (t := p.text.toList)
  rw [components_eq] at h
  obtain hlead | ⟨first, hlead⟩ := lead_cases p
  · rw [hlead] at h
    exact List.mem_of_mem_tail h
  · rwa [hlead] at h

theorem components_of_empty (h : p.text = "") : p.components = [] := by
  obtain ⟨text⟩ := p
  subst h
  rfl

/-- Only the empty path has no components. -/
theorem components_ne_nil (h : p.text ≠ "") : p.components ≠ [] := by
  obtain ⟨text⟩ := p
  have hne : text.toList ≠ [] := fun e => h (by simpa using congrArg String.ofList e)
  obtain ⟨x, t, ht⟩ := List.exists_cons_of_ne_nil hne
  unfold components
  simp only [ht]
  by_cases hslash : x = '/'
  · simp [hslash]
  · -- the first part starts with `x`, so it is a component
    obtain ⟨f, fs, hparts⟩ : ∃ f fs, parts (x :: t) = (x :: f) :: fs := by
      unfold parts
      rw [Text.fields, if_neg (by simpa using hslash)]
      cases hf : Text.fields (· == '/') t with
      | nil => exact absurd hf (Text.fields_ne_nil _ t)
      | cons f fs => exact ⟨f, fs, rfl⟩
    by_cases hdot : x :: f = ['.']
    · simp [hslash, hparts, hdot]
    · by_cases hparent : x :: f = ['.', '.'] <;>
        simp [hslash, hparts, hdot, hparent, Component.ofPart?]

/-! ## Spelling components -/

/-- Components with `/` between them. -/
def spell (cs : List Component) : String := "/".intercalate (cs.map Component.name)

theorem toList_spell_cons (hcs : cs ≠ []) :
    (spell (c :: cs)).toList = c.name.toList ++ '/' :: (spell cs).toList := by
  obtain ⟨d, ds, rfl⟩ := List.exists_cons_of_ne_nil hcs
  simp only [spell, List.map_cons, String.intercalate_cons_cons, String.toList_append,
    List.append_assoc]
  rfl

theorem parts_spell (h : ∀ c ∈ cs, c.Inner) (hne : cs ≠ []) :
    parts (spell cs).toList = cs.map fun c => c.name.toList := by
  have htext : (spell cs).toList = Text.join ['/'] (cs.map fun c => c.name.toList) := by
    rw [spell, String.toList_intercalate, Text.join_eq_intercalate, List.map_map]
    rfl
  rw [htext, parts]
  apply Text.fields_join
  · intro part hpart
    obtain ⟨c, hc, rfl⟩ := List.mem_map.1 hpart
    exact (h c hc).no_slash
  · simpa using hne

theorem solid_spell (h : ∀ c ∈ cs, c.Inner) : solid (spell cs).toList = cs := by
  by_cases hne : cs = []
  · subst hne
    rfl
  · rw [solid, parts_spell h hne, List.filterMap_map]
    calc cs.filterMap (Component.ofPart? ∘ fun c => c.name.toList)
        = cs.filterMap some := List.filterMap_congr fun c hc => (h c hc).read
      _ = cs := List.filterMap_some

/-- No part of the spelling is a `.`. -/
theorem dot_not_mem_parts_spell (h : ∀ c ∈ cs, c.Inner) : ['.'] ∉ parts (spell cs).toList := by
  intro hdot
  by_cases hne : cs = []
  · subst hne
    exact absurd hdot (by decide)
  · rw [parts_spell h hne] at hdot
    obtain ⟨c, hc, hname⟩ := List.mem_map.1 hdot
    exact (h c hc).ne_dot hname

theorem isAbsolute_spell (h : ∀ c ∈ cs, c.Inner) : (⟨spell cs⟩ : Path).isAbsolute = false := by
  unfold isAbsolute
  rw [beq_eq_false_iff_ne]
  intro hslash
  by_cases hne : cs = []
  · subst hne
    cases hslash
  · -- a slash in front would leave an empty part before it
    obtain ⟨s, hs⟩ := List.head?_eq_some_iff.1 hslash
    have hparts : parts ('/' :: s) = [] :: parts s := parts_append_slash [] s
    have hempty : [] ∈ cs.map fun c => c.name.toList := by
      rw [← parts_spell h hne, hs, hparts]
      exact List.mem_cons_self
    obtain ⟨c, hc, hname⟩ := List.mem_map.1 hempty
    exact (h c hc).ne_nil hname

/-- Components that can stand anywhere are those of the path they spell. -/
theorem components_spell (h : ∀ c ∈ cs, c.Inner) : (⟨spell cs⟩ : Path).components = cs := by
  have hlead : (⟨spell cs⟩ : Path).lead = [] := by
    unfold lead
    rw [isAbsolute_spell h, if_neg Bool.false_ne_true, if_neg]
    intro hdot
    exact dot_not_mem_parts_spell h (List.mem_of_mem_head? hdot)
  rw [components_eq, hlead, solid_spell h, List.nil_append]

/-- A slash in front is spelled twice, unless it stands alone. -/
theorem toList_spell_root (hne : cs ≠ []) :
    (spell (.root :: cs)).toList = '/' :: '/' :: (spell cs).toList := toList_spell_cons hne

/-- A slash in front is read back as well. -/
theorem components_spell_root (h : ∀ c ∈ cs, c.Inner) :
    (⟨spell (.root :: cs)⟩ : Path).components = .root :: cs := by
  by_cases hne : cs = []
  · subst hne
    decide
  · have htext := toList_spell_root hne
    have hsolid : solid ('/' :: '/' :: (spell cs).toList) = cs := by
      calc solid ('/' :: '/' :: (spell cs).toList)
          = solid [] ++ solid ('/' :: (spell cs).toList) := solid_append_slash [] _
        _ = solid [] ++ (solid [] ++ solid (spell cs).toList) :=
            congrArg (solid [] ++ ·) (solid_append_slash [] _)
        _ = cs := by simp [solid_nil, solid_spell h]
    have habsolute : (⟨spell (.root :: cs)⟩ : Path).isAbsolute = true := by
      simp [isAbsolute, htext]
    rw [components_eq, lead, if_pos habsolute, htext, hsolid, List.singleton_append]

theorem dot_not_mem_parts_spell_root (h : ∀ c ∈ cs, c.Inner) :
    ['.'] ∉ parts (spell (.root :: cs)).toList := by
  by_cases hne : cs = []
  · subst hne
    decide
  · have hparts : parts ('/' :: '/' :: (spell cs).toList) = [] :: [] :: parts (spell cs).toList :=
      (parts_append_slash [] _).trans (congrArg ([] :: ·) (parts_append_slash [] _))
    rw [toList_spell_root hne, hparts]
    intro hdot
    apply dot_not_mem_parts_spell h
    simpa using hdot

/-! ## What a file has beyond its root -/

theorem isBelow_iff_exists :
    p.isBelow root = true ↔ ∃ cs, p.components = root.components ++ cs := by
  rw [isBelow, List.isPrefixOf_iff_prefix]
  constructor
  · rintro ⟨cs, hcs⟩
    exact ⟨cs, hcs.symm⟩
  · rintro ⟨cs, hcs⟩
    exact ⟨cs, hcs.symm⟩

/-- Every path is below the empty one. -/
theorem components_below_empty (p : Path) :
    p.components = (⟨""⟩ : Path).components ++ p.components := rfl

/-- Components without a `.`, which a relative path does not spell. -/
def withoutCurrent (cs : List Component) : List Component := cs.filter (· != .current)

theorem withoutCurrent_of_inner (h : ∀ c ∈ cs, c.Inner) : withoutCurrent cs = cs := by
  rw [withoutCurrent, List.filter_eq_self]
  intro c hc
  simpa using (h c hc).ne_current

theorem relativeTo_eq_spell (h : p.components = root.components ++ cs) :
    root.relativeTo p = spell (withoutCurrent cs) := by
  rw [relativeTo, h, dropComponents?_append]
  rfl

/-- Behind a root that is not empty there is neither a `.` nor a slash. -/
theorem inner_of_added (h : p.components = root.components ++ cs) (hroot : root.text ≠ "") :
    ∀ c ∈ cs, c.Inner := by
  intro c hc
  obtain ⟨r, rs, hrs⟩ := List.exists_cons_of_ne_nil (components_ne_nil hroot)
  apply inner_of_mem_tail (p := p)
  rw [h, hrs]
  exact List.mem_append_right rs hc

/-- Of the components of a whole path a slash in front is spelled, but not a `.`. -/
theorem withoutCurrent_components (p : Path) :
    withoutCurrent p.components =
      (if p.isAbsolute then [Component.root] else []) ++ solid p.text.toList := by
  have hsolid : withoutCurrent (solid p.text.toList) = solid p.text.toList :=
    withoutCurrent_of_inner fun c hc => inner_of_mem_solid hc
  rw [withoutCurrent] at hsolid ⊢
  rw [components_eq, List.filter_append, hsolid]
  unfold lead
  by_cases habsolute : p.isAbsolute = true
  · simp [habsolute]
  · by_cases hdot : (parts p.text.toList).head? = some ['.'] <;> simp [habsolute, hdot]

/-- What is spelled can stand anywhere, except for the slash in front of a path
    below the empty one. -/
theorem added_cases (h : p.components = root.components ++ cs) :
    (∀ c ∈ withoutCurrent cs, c.Inner) ∨ (root.text = "" ∧ p.isAbsolute = true ∧
      ∃ ds : List Component, withoutCurrent cs = .root :: ds ∧ ∀ c ∈ ds, c.Inner) := by
  have hsolid : ∀ c ∈ solid p.text.toList, c.Inner := fun c hc => inner_of_mem_solid hc
  by_cases hroot : root.text = ""
  · have hcs : cs = p.components := by
      rw [h, components_of_empty hroot, List.nil_append]
    rw [hcs, withoutCurrent_components]
    by_cases habsolute : p.isAbsolute = true
    · right
      exact ⟨hroot, habsolute, solid p.text.toList, by simp [habsolute], hsolid⟩
    · left
      simpa [habsolute] using hsolid
  · left
    have hinner := inner_of_added h hroot
    rwa [withoutCurrent_of_inner hinner]

/-- The relative path has the components that were added to the root, without a
    `.` in front of them. -/
theorem components_relativeTo (h : p.components = root.components ++ cs) :
    (⟨root.relativeTo p⟩ : Path).components = withoutCurrent cs := by
  rw [relativeTo_eq_spell h]
  obtain hinner | ⟨-, -, ds, hds, hinner⟩ := added_cases h
  · exact components_spell hinner
  · rw [hds]
    exact components_spell_root hinner

/-- Files below a root have the same relative path if the same was added to the
    root, up to a `.` in front of it. -/
theorem relativeTo_eq_iff (hp : p.components = root.components ++ cs)
    (hq : q.components = root.components ++ ds) :
    root.relativeTo p = root.relativeTo q ↔ withoutCurrent cs = withoutCurrent ds := by
  constructor
  · intro h
    rw [← components_relativeTo hp, ← components_relativeTo hq, h]
  · intro h
    rw [relativeTo_eq_spell hp, relativeTo_eq_spell hq, h]

/-- No part of a relative path is a `.`. -/
theorem dot_not_mem_parts_relativeTo (h : p.components = root.components ++ cs) :
    ['.'] ∉ parts (root.relativeTo p).toList := by
  rw [relativeTo_eq_spell h]
  obtain hinner | ⟨-, -, ds, hds, hinner⟩ := added_cases h
  · exact dot_not_mem_parts_spell hinner
  · rw [hds]
    exact dot_not_mem_parts_spell_root hinner

/-! ## The way back -/

/-- The parts of a text between slashes, as names. -/
def split (t : String) : List String := (parts t.toList).map String.ofList

/-- One part that is put below a path adds the component that it is. The empty
    path has nothing before it, so there a `.` would count. -/
theorem components_child_part {part : List Char} (hslash : '/' ∉ part) (hdot : part ≠ ['.']) :
    (p.child (String.ofList part)).components =
      p.components ++ (Component.ofPart? part).toList := by
  have hsolid : solid part = (Component.ofPart? part).toList := by
    rw [solid, parts_of_not_mem hslash]
    cases hpart : Component.ofPart? part <;> simp [hpart]
  have hrelative : (⟨String.ofList part⟩ : Path).isAbsolute = false :=
    isAbsolute_of_not_mem (by rwa [String.toList_ofList])
  unfold child
  by_cases hp : p.text = ""
  · have htext : p.join ⟨String.ofList part⟩ = ⟨String.ofList part⟩ :=
      congrArg Path.mk (text_join_empty hrelative hp)
    have hlead : (⟨String.ofList part⟩ : Path).lead = [] := by
      unfold lead
      rw [hrelative, String.toList_ofList, parts_of_not_mem hslash]
      simp [hdot]
    rw [htext, components_eq, hlead, components_of_empty hp, String.toList_ofList, hsolid]
  · rw [components_join hrelative hp, String.toList_ofList, hsolid]

theorem components_descend_parts {ps : List (List Char)} (hslash : ∀ part ∈ ps, '/' ∉ part)
    (hdot : ['.'] ∉ ps) :
    (p.descend (ps.map String.ofList)).components =
      p.components ++ ps.filterMap Component.ofPart? := by
  induction ps generalizing p with
  | nil => simp [descend]
  | cons part ps ih =>
    have hpart : part ≠ ['.'] := fun e => hdot (e ▸ List.mem_cons_self)
    have hchild := components_child_part (p := p) (hslash part List.mem_cons_self) hpart
    have hrest := ih (p := p.child (String.ofList part))
      (fun part' h => hslash part' (List.mem_cons_of_mem part h))
      (fun h => hdot (List.mem_cons_of_mem part h))
    rw [List.map_cons, descend, List.foldl_cons, ← descend, hrest, hchild, List.append_assoc]
    cases hc : Component.ofPart? part <;> simp [hc]

/-- A text without `.` that is put below a root part by part adds the components
    that it has. -/
theorem components_descend_split {t : String} (hdot : ['.'] ∉ parts t.toList) :
    (root.descend (split t)).components = root.components ++ solid t.toList :=
  components_descend_parts (fun _ hpart => not_mem_of_mem_parts hpart) hdot

theorem current_not_mem_split {t : String} (hdot : ['.'] ∉ parts t.toList) : "." ∉ split t := by
  intro hmem
  obtain ⟨part, hpart, hname⟩ := List.mem_map.1 hmem
  have hpartdot : part = ['.'] := by
    rw [← String.toList_ofList (l := part), hname]
    rfl
  exact hdot (hpartdot ▸ hpart)

/-- How a relative path stands for a file: it does not start with a slash, no
    part of it is a `.`, and put below the root part by part it has the given
    components. -/
structure Retraces (root p : Path) (cs : List Component) : Prop where
  no_slash : (root.relativeTo p).toList.head? ≠ some '/'
  no_current : "." ∉ split (root.relativeTo p)
  back : (root.descend (split (root.relativeTo p))).components = cs

/-- A relative path leads back to all that it spells. -/
theorem retraces (h : p.components = root.components ++ cs)
    (hrelative : root.text = "" → p.isAbsolute = false) :
    root.Retraces p (root.components ++ withoutCurrent cs) := by
  have hinner : ∀ c ∈ withoutCurrent cs, c.Inner := by
    obtain hinner | ⟨hroot, habsolute, -⟩ := added_cases h
    · exact hinner
    · rw [hrelative hroot] at habsolute
      cases habsolute
  have hdot := dot_not_mem_parts_relativeTo h
  constructor
  · have hspell := isAbsolute_spell hinner
    rw [← relativeTo_eq_spell h] at hspell
    exact beq_eq_false_iff_ne.1 hspell
  · exact current_not_mem_split hdot
  · rw [components_descend_split hdot, relativeTo_eq_spell h, solid_spell hinner]

end MessageHarvest.Path
