import MessageHarvest.Proofs.Catalog.Line

/-! # How references are wrapped

    The references of a message are written into lines that are filled one
    after the other. That describes them completely: there is only one way to
    cut a sequence of references into filled lines (`Filled.unique`).

    * `messageLines_eq`: the reference lines of a message come first, and no
      other line looks like one.
    * `references_wrapped`: so they are found again among the lines of the text
      that is written for the message. -/

namespace MessageHarvest.Catalog

/-! ## Filled lines -/

section Filled

variable {width : Nat} {g : List Occurrence} {gs hs : List (List Occurrence)}

theorem Filled.tail (h : Filled width (g :: gs)) : Filled width gs where
  nonempty := fun g' hg' => h.nonempty g' (List.mem_cons_of_mem g hg')
  fits := fun g' hg' => h.fits g' (List.mem_cons_of_mem g hg')
  greedy := h.greedy.tail

/-- A filled line has no room for more of what follows it. -/
theorem Filled.nothing_more (h : Filled width (g :: gs)) {more rest : List Occurrence}
    (hnext : gs.flatten = more ++ rest)
    (hfits : 2 ≤ (g ++ more).length → Text.byteLength (referenceLine (g ++ more)) ≤ width) :
    more = [] := by
  cases more with
  | nil => rfl
  | cons o more =>
    -- the next line starts with the first of them, which did not fit even alone
    exfalso
    rw [List.cons_append] at hnext
    obtain ⟨next, gs, rfl, hhead⟩ := h.tail.head? hnext
    have hlong : width < Text.byteLength (referenceLine (g ++ [o])) :=
      (List.isChain_cons_cons.1 h.greedy).1 o hhead
    have hlonger : Text.byteLength (referenceLine (g ++ [o])) ≤
        Text.byteLength (referenceLine (g ++ o :: more)) := by
      rw [List.append_cons g o more, referenceLine_append (g ++ [o]) more, Text.byteLength_append]
      exact Nat.le_add_right _ _
    have hg : 0 < g.length := List.length_pos_iff.2 (h.nonempty g List.mem_cons_self)
    have htwo : 2 ≤ (g ++ o :: more).length := by
      rw [List.length_append, List.length_cons]
      omega
    have := hfits htwo
    omega

/-- Occurrences are cut into filled lines in one way only. -/
theorem Filled.unique (hgs : Filled width gs) (hhs : Filled width hs)
    (h : gs.flatten = hs.flatten) : gs = hs := by
  induction gs generalizing hs with
  | nil =>
    cases hs with
    | nil => rfl
    | cons k hs =>
      have hk : k = [] := (List.append_eq_nil_iff.1 h.symm).1
      exact absurd hk (hhs.nonempty k List.mem_cons_self)
  | cons g gs ih =>
    cases hs with
    | nil =>
      have hg : g = [] := (List.append_eq_nil_iff.1 h).1
      exact absurd hg (hgs.nonempty g List.mem_cons_self)
    | cons k hs =>
      -- one of the two first lines is at most as long as the other
      have hfirst : g = k := by
        rcases List.append_eq_append_iff.1 h with ⟨more, rfl, hrest⟩ | ⟨more, rfl, hrest⟩
        · have := hgs.nothing_more hrest (hhs.fits _ List.mem_cons_self)
          rw [this, List.append_nil]
        · have := hhs.nothing_more hrest (hgs.fits _ List.mem_cons_self)
          rw [this, List.append_nil]
      subst hfirst
      rw [ih hgs.tail hhs.tail (List.append_cancel_left h)]

end Filled

/-! ## Lines of a message -/

/-- Whether a line is a reference line. -/
def IsReferenceLine (l : List Char) : Prop := referenceMark <+: l

theorem not_isReferenceLine_of_head {l : List Char} (h : l.head? ≠ some '#') :
    ¬ IsReferenceLine l := by
  rintro ⟨t, rfl⟩
  exact h rfl

theorem not_isReferenceLine_quote (t : List Char) : ¬ IsReferenceLine (quote t) :=
  not_isReferenceLine_of_head (by simp [quote])

theorem not_isReferenceLine_fieldLine {keyword : String} (h : keyword.toList.head? = some 'm')
    (t : List Char) : ¬ IsReferenceLine (fieldLine keyword t) := by
  apply not_isReferenceLine_of_head
  rw [fieldLine, List.head?_append, h, Option.some_or]
  decide

theorem not_isReferenceLine_of_mem_fieldLines {keyword : String}
    (h : keyword.toList.head? = some 'm') {t l : List Char} (hl : l ∈ fieldLines keyword t) :
    ¬ IsReferenceLine l := by
  unfold fieldLines at hl
  split at hl
  · rcases List.mem_cons.1 hl with rfl | hl
    · exact not_isReferenceLine_fieldLine h []
    · obtain ⟨l', -, rfl⟩ := List.mem_map.1 hl
      exact not_isReferenceLine_quote l'
  · rw [List.mem_singleton.1 hl]
    exact not_isReferenceLine_fieldLine h t

/-- Behind its reference lines a message has no line that looks like one. -/
theorem messageLines_eq (m : Message) :
    ∃ rest, messageLines m = referenceLines m.occurrences.toList ++ rest ∧
      ∀ l ∈ rest, ¬ IsReferenceLine l := by
  refine ⟨_, List.append_assoc .., fun l hl => ?_⟩
  rcases List.mem_append.1 hl with hl | hl
  · exact not_isReferenceLine_of_mem_fieldLines (by decide) hl
  · split at hl
    · rcases List.mem_append.1 hl with hl | hl
      · exact not_isReferenceLine_of_mem_fieldLines (by decide) hl
      · have : l = fieldLine "msgstr[0]" [] ∨ l = fieldLine "msgstr[1]" [] := by simpa using hl
        rcases this with rfl | rfl <;> exact not_isReferenceLine_fieldLine (by decide) []
    · rw [List.mem_singleton.1 hl]
      exact not_isReferenceLine_fieldLine (by decide) []

/-- Nothing but the line feed is taken off a reference line. -/
theorem chomp_referenceLine {os : List Occurrence} (h : os ≠ []) :
    Text.chomp (referenceLine os ++ ['\n']) = referenceLine os := by
  refine (Text.chomp_concat _).resolve_right fun hreturn => ?_
  obtain ⟨a, c, ha, hc⟩ := exists_digit_of_ne_nil h
  rw [referenceLine, ha, ← List.append_assoc] at hreturn
  have hlast : c = '\r' := (List.append_inj' hreturn rfl).2 |> List.singleton_inj.1
  rw [hlast] at hc
  cases hc

theorem not_isReferenceLine_chomp {l : List Char} (h : ¬ IsReferenceLine l) :
    ¬ IsReferenceLine (Text.chomp (l ++ ['\n'])) := by
  intro hmark
  rcases Text.chomp_concat l with hl | hl
  · exact h (hl ▸ hmark)
  · exact h (hl ▸ hmark.trans (List.prefix_append _ _))

/-- **Reference wrapping.** Among the lines of the text of a message, the
    reference lines come first. They hold every occurrence once and in order,
    a line with two or more of them has at most 79 bytes, and every line but
    the last has no room for the first reference of the next line; no other
    lines are filled like this. Without occurrences there is none. -/
theorem references_wrapped (m : Message)
    (hpaths : ∀ o ∈ m.occurrences.toList, '\n' ∉ o.path.toList) :
    ∃ (groups : List (List Occurrence)) (rest : List (List Char)),
      Text.lines ((messageLines m).flatMap fun l => l ++ ['\n']) =
        groups.map referenceLine ++ rest ∧
      (∀ l ∈ rest, ¬ IsReferenceLine l) ∧
      groups.flatten = m.occurrences.toList ∧
      Filled 79 groups ∧
      (∀ others, others.flatten = m.occurrences.toList → Filled 79 others → others = groups) ∧
      (m.occurrences.toList = [] → groups = []) := by
  obtain ⟨groups, hgroups, hflat, hfilled⟩ := referenceLines_filled m.occurrences.toList
  obtain ⟨rest, hlines, hrest⟩ := messageLines_eq m
  have hunique : ∀ others, others.flatten = m.occurrences.toList → Filled 79 others →
      others = groups :=
    fun others hothers h => h.unique hfilled (hothers.trans hflat.symm)
  have hreferences : (referenceLines m.occurrences.toList).map
      (fun l => Text.chomp (l ++ ['\n'])) = groups.map referenceLine := by
    rw [hgroups, List.map_map]
    exact List.map_congr_left fun g hg => chomp_referenceLine (hfilled.nonempty g hg)
  refine ⟨groups, rest.map fun l => Text.chomp (l ++ ['\n']), ?_, ?_, hflat, hfilled, hunique, ?_⟩
  · rw [Text.lines_flatMap fun l hl => not_mem_messageLines hpaths hl, hlines, List.map_append,
      hreferences]
  · intro l hl
    obtain ⟨l', hl', rfl⟩ := List.mem_map.1 hl
    exact not_isReferenceLine_chomp (hrest l' hl')
  · intro hnone
    have hempty : Filled 79 ([] : List (List Occurrence)) := ⟨by simp, by simp, .nil⟩
    exact (hunique [] (by simp [hnone]) hempty).symm

/-- A message whose references would fit into one line if characters were
    counted, but not bytes. -/
def scattered : Message where
  key := ⟨"Open", none⟩
  occurrences := .ofList [⟨"源代码/编辑器/菜单.java", 7⟩, ⟨"源代码/编辑器/窗口.java", 40⟩,
    ⟨"源代码/编辑器/窗口.java", 12⟩]

theorem references_wrapped_scattered :
    (∀ o ∈ scattered.occurrences.toList, '\n' ∉ o.path.toList) ∧
    ∃ rest,
      Text.lines ((messageLines scattered).flatMap fun l => l ++ ['\n']) =
        ["#: 源代码/编辑器/窗口.java:12 源代码/编辑器/窗口.java:40".toList,
          "#: 源代码/编辑器/菜单.java:7".toList] ++ rest ∧
      ∀ l ∈ rest, ¬ IsReferenceLine l := by
  let groups : List (List Occurrence) :=
    [[⟨"源代码/编辑器/窗口.java", 12⟩, ⟨"源代码/编辑器/窗口.java", 40⟩],
      [⟨"源代码/编辑器/菜单.java", 7⟩]]
  have hsorted : groups.flatten = scattered.occurrences.toList := by decide +kernel
  have hpaths : ∀ o ∈ scattered.occurrences.toList, '\n' ∉ o.path.toList := by
    rw [← hsorted]
    decide +kernel
  have htext : groups.map referenceLine =
      ["#: 源代码/编辑器/窗口.java:12 源代码/编辑器/窗口.java:40".toList,
        "#: 源代码/编辑器/菜单.java:7".toList] := by
    iterate 2 rewrite [String.toList_ofList]
    decide +kernel
  have hfilled : Filled 79 groups :=
    ⟨by decide, by decide +kernel, List.isChain_pair.2 (by decide +kernel)⟩
  obtain ⟨_, rest, hlines, hrest, -, -, hunique, -⟩ := references_wrapped scattered hpaths
  rw [← hunique groups hsorted hfilled, htext] at hlines
  exact ⟨hpaths, rest, hlines, hrest⟩

end MessageHarvest.Catalog
