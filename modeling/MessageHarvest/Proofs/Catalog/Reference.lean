import Mathlib.Data.List.Chain
import MessageHarvest.Catalog.Reference
import MessageHarvest.Proofs.Text.Lines
import MessageHarvest.Proofs.Text.Number
import MessageHarvest.Proofs.Text.Utf8

/-! # References that are read back

    A reference line gives back the occurrences that were written into it if
    and only if their paths are representable: not empty, without line feeds,
    not starting with a blank, and without a colon and digits right in front
    of a blank, where the reader would see the end of a reference.

    * `parseReferences_of_representable`: such occurrences are read back.
    * `representable_of_mem_parseReferences`: no other ones are ever read.
    * `referenceLines_filled`: the lines hold the references in order, each line
      as many as fit and at least one. -/

namespace MessageHarvest.Catalog

/-! ## Representable occurrences -/

/-- No blank follows a colon and digits, so that no word but the last one can
    be taken for the end of a reference. -/
def Unbroken (t : List Char) : Prop :=
  ∀ a digits c b, t = a ++ ':' :: (digits ++ c :: b) → Text.isBlank c = true →
    Text.isDigits digits = false

theorem unbroken_of_not_mem {t : List Char} (h : ':' ∉ t) : Unbroken t := by
  rintro a digits c b rfl
  simp at h

/-- A text does not start with a blank. -/
def StartsSolid (t : List Char) : Prop := ∀ c ∈ t.head?, Text.isBlank c = false

instance (t : List Char) : Decidable (StartsSolid t) :=
  decidable_of_iff ((t.head?.all fun c => !Text.isBlank c) = true) (by
    unfold StartsSolid
    cases t.head? <;> simp)

/-- A path that a reference line can hold. -/
structure RepresentablePath (path : List Char) : Prop where
  nonempty : path ≠ []
  noLineFeed : '\n' ∉ path
  startsSolid : StartsSolid path
  unbroken : Unbroken path

/-- An occurrence that a reference line can hold; its line is a count. -/
structure Representable (o : Occurrence) : Prop where
  path : RepresentablePath o.path.toList
  line : o.line < Text.countLimit

theorem reference_eq (o : Occurrence) :
    o.reference = o.path.toList ++ ':' :: Nat.toDigits 10 o.line := by
  simp [Occurrence.reference]

/-- The digits behind the last colon of a word make it the end of a reference. -/
theorem hasLineSuffix_append {digits : List Char} (h : Text.isDigits digits = true)
    (a : List Char) : hasLineSuffix (a ++ ':' :: digits) = true := by
  have hcut : Text.splitLast (· == ':') (a ++ ':' :: digits) = some (a, digits) := by
    refine Text.splitLast_eq_some_iff.2 ⟨':', rfl, by decide, fun c hc => ?_⟩
    have hne := Text.ne_of_isDigit (d := ':') (by decide) ((Text.isDigits_iff.1 h).2 c hc)
    simpa using hne
  unfold hasLineSuffix
  rw [hcut]
  exact h

theorem eq_of_hasLineSuffix {word : List Char} (h : hasLineSuffix word = true) :
    ∃ a digits, word = a ++ ':' :: digits ∧ Text.isDigits digits = true := by
  unfold hasLineSuffix at h
  split at h
  · next a digits e =>
    obtain ⟨c, rfl, hc, -⟩ := Text.splitLast_eq_some_iff.1 e
    cases beq_iff_eq.1 hc
    exact ⟨a, digits, rfl, h⟩
  · cases h

/-! ## Reading what was written -/

section Writing

variable {before word t : List Char}

/-- Characters that are not blank add to the current word. -/
theorem splitFrom_append {w : List Char} (h : ∀ c ∈ w, Text.isBlank c = false) :
    splitFrom before word (w ++ t) = splitFrom before (w.reverse ++ word) t := by
  induction w generalizing word with
  | nil => rfl
  | cons c w ih =>
    have hc := h c (by simp)
    rw [List.cons_append, splitFrom, hc]
    simp only [Bool.not_false, if_true]
    rw [ih fun d hd => h d (by simp [hd])]
    simp

/-- A blank before the first word is passed over. -/
theorem splitFrom_blank {c : Char} (h : Text.isBlank c = true) :
    splitFrom [] [] (c :: t) = splitFrom [] [] t := by
  rw [splitFrom]
  simp [h]

/-- Reading a part of an unbroken text ends no reference, whatever follows. -/
theorem splitFrom_unbroken (before word : List Char) {q : List Char}
    (hstart : StartsSolid (before.reverse ++ word.reverse ++ q))
    (hunbroken : Unbroken (before.reverse ++ word.reverse ++ q)) :
    ∃ before' word', before'.reverse ++ word'.reverse = before.reverse ++ word.reverse ++ q ∧
      ∀ t, splitFrom before word (q ++ t) = splitFrom before' word' t := by
  induction q generalizing before word with
  | nil => exact ⟨before, word, by simp, fun t => rfl⟩
  | cons c q ih =>
    by_cases hc : Text.isBlank c = true
    · by_cases hw : word = []
      · subst hw
        -- a blank behind a blank; at the very front the text would start with it
        have hb : before ≠ [] := by
          rintro rfl
          have := hstart c (by simp)
          rw [hc] at this
          cases this
        have e : (c :: before).reverse ++ [].reverse ++ q =
            before.reverse ++ [].reverse ++ c :: q := by simp
        obtain ⟨b', w', he, hs⟩ := ih (c :: before) [] (e ▸ hstart) (e ▸ hunbroken)
        refine ⟨b', w', he.trans e, fun t => ?_⟩
        rw [List.cons_append, splitFrom, ← hs t]
        simp [hc, hb]
      · -- the word that ends here is not the end of a reference
        have hsuffix : hasLineSuffix word.reverse = false := by
          rw [Bool.eq_false_iff]
          intro hs
          obtain ⟨a, digits, e, hd⟩ := eq_of_hasLineSuffix hs
          have := hunbroken (before.reverse ++ a) digits c q (by simp [e]) hc
          rw [hd] at this
          cases this
        have e : (c :: (word ++ before)).reverse ++ [].reverse ++ q =
            before.reverse ++ word.reverse ++ c :: q := by simp
        obtain ⟨b', w', he, hs⟩ := ih (c :: (word ++ before)) []
          (e ▸ hstart) (e ▸ hunbroken)
        refine ⟨b', w', he.trans e, fun t => ?_⟩
        rw [List.cons_append, splitFrom, ← hs t]
        simp [hc, hw, hsuffix]
    · -- the character adds to the word
      have e : before.reverse ++ (c :: word).reverse ++ q =
          before.reverse ++ word.reverse ++ c :: q := by simp
      obtain ⟨b', w', he, hs⟩ := ih before (c :: word) (e ▸ hstart) (e ▸ hunbroken)
      refine ⟨b', w', he.trans e, fun t => ?_⟩
      rw [List.cons_append, splitFrom, ← hs t]
      simp [hc]

/-- What may stand behind a reference: nothing, or a blank. -/
def EndsWord (t : List Char) : Prop := ∀ c ∈ t.head?, Text.isBlank c = true

/-- A colon and digits end a reference. -/
theorem splitFrom_line {digits : List Char} (hd : Text.isDigits digits = true) (ht : EndsWord t) :
    splitFrom before word (':' :: digits ++ t) =
      (before.reverse ++ word.reverse ++ ':' :: digits) :: splitFrom [] [] t := by
  have hsolid : ∀ c ∈ ':' :: digits, Text.isBlank c = false := by
    intro c hc
    rcases List.mem_cons.1 hc with rfl | hc
    · decide
    · exact Text.not_isBlank_of_isDigit ((Text.isDigits_iff.1 hd).2 c hc)
  have hsuffix := hasLineSuffix_append hd word.reverse
  rw [splitFrom_append hsolid]
  cases t with
  | nil => simp [splitFrom]
  | cons c t =>
    have hc : Text.isBlank c = true := ht c (by simp)
    rw [splitFrom_blank hc, splitFrom]
    simp [hc, hsuffix]

/-- A written reference is split off as a whole. -/
theorem splitFrom_reference {o : Occurrence} (h : RepresentablePath o.path.toList)
    (ht : EndsWord t) :
    splitFrom [] [] (' ' :: o.reference ++ t) = o.reference :: splitFrom [] [] t := by
  obtain ⟨before, word, he, hs⟩ := splitFrom_unbroken [] [] (q := o.path.toList)
    (by simpa using h.startsSolid) (by simpa using h.unbroken)
  rw [List.cons_append, splitFrom_blank (by decide), reference_eq, List.append_assoc, hs,
    splitFrom_line (Text.isDigits_toDigits o.line) ht, he]
  simp

theorem parseReference?_reference {o : Occurrence} (h : Representable o) :
    parseReference? o.reference = some o := by
  have hcut : Text.splitLast (· == ':') o.reference =
      some (o.path.toList, Nat.toDigits 10 o.line) := by
    refine Text.splitLast_eq_some_iff.2 ⟨':', reference_eq o, by decide, fun c hc => ?_⟩
    have hd := (Text.isDigits_iff.1 (Text.isDigits_toDigits o.line)).2 c hc
    simpa using Text.ne_of_isDigit (d := ':') (by decide) hd
  unfold parseReference?
  rw [hcut]
  simp [Text.count?_toDigits h.line, h.path.nonempty]

/-- Representable occurrences are read back, in order. -/
theorem parseReferences_of_representable {os : List Occurrence} (h : ∀ o ∈ os, Representable o) :
    parseReferences (os.flatMap fun o => ' ' :: o.reference) = os := by
  unfold parseReferences splitReferences
  induction os with
  | nil => rfl
  | cons o os ih =>
    have ho := h o (by simp)
    have hrest : EndsWord (os.flatMap fun o => ' ' :: o.reference) := by
      cases os with
      | nil => simp [EndsWord]
      | cons o' os =>
        intro c hc
        have hc : ' ' = c := by simpa using hc
        rw [← hc]
        decide
    rw [List.flatMap_cons, splitFrom_reference ho.path hrest, List.filterMap_cons,
      parseReference?_reference ho]
    show o :: _ = _
    rw [ih fun o' ho' => h o' (by simp [ho'])]

end Writing

/-! ## What can be read -/

section Reading

theorem Unbroken.of_append {a b : List Char} (h : Unbroken (a ++ b)) : Unbroken a := by
  intro x digits c y e hc
  exact h x digits c (y ++ b) (by simp [e]) hc

theorem StartsSolid.of_append {a b : List Char} (h : StartsSolid (a ++ b)) : StartsSolid a := by
  intro c hc
  cases a with
  | nil => simp at hc
  | cons d a => exact h c (by simpa using hc)

/-- What is put behind a text changes its first character only if there was none. -/
theorem StartsSolid.append {a b : List Char} (ha : StartsSolid a) (hb : a = [] → StartsSolid b) :
    StartsSolid (a ++ b) := by
  cases a with
  | nil => exact hb rfl
  | cons d a => exact fun c hc => ha c (by simpa using hc)

/-- A last word cannot break a text, as no blank follows it. -/
theorem Unbroken.append_solid {a w : List Char} (ha : Unbroken a)
    (hw : ∀ c ∈ w, Text.isBlank c = false) : Unbroken (a ++ w) := by
  intro x digits c y e hc
  have e' : a ++ w = (x ++ ':' :: (digits ++ [c])) ++ y := by simp [e]
  rcases List.append_eq_append_iff.1 e' with ⟨z, hz, hw'⟩ | ⟨z, hz, -⟩
  · -- the blank would have to stand in the word, unless the word starts behind it
    rcases List.eq_nil_or_concat z with rfl | ⟨z, d, rfl⟩
    · exact ha x digits c [] (by simpa using hz.symm) hc
    · have hd : c = d := by
        have : (x ++ ':' :: digits) ++ [c] = (a ++ z) ++ [d] := by simpa using hz
        simpa using (List.append_inj' this rfl).2
      have := hw d (by rw [hw']; simp)
      rw [← hd, hc] at this
      cases this
  · exact ha x digits c z (by simp [hz]) hc

/-- A blank behind a word without a line suffix does not break a text in which
    blanks stand before the word. -/
theorem Unbroken.append_gap {a w : List Char} (ha : Unbroken a)
    (hgap : ∀ c ∈ a.getLast?, Text.isBlank c = true) (hsolid : ∀ c ∈ w, Text.isBlank c = false)
    (hw : hasLineSuffix w = false) (c : Char) : Unbroken (a ++ w ++ [c]) := by
  intro x digits d y e hd
  rcases List.eq_nil_or_concat y with rfl | ⟨y, d', rfl⟩
  · -- the blank is the last character, so the colon and the digits end the word
    rw [Bool.eq_false_iff]
    intro hdigits
    have e' : a ++ w = x ++ ':' :: digits := by
      have : a ++ w ++ [c] = (x ++ ':' :: digits) ++ [d] := by simp [e]
      exact (List.append_inj' this rfl).1
    rcases List.append_eq_append_iff.1 e' with ⟨z, rfl, hz⟩ | ⟨z, rfl, hz⟩
    · rw [hz, hasLineSuffix_append hdigits] at hw
      cases hw
    · rcases List.eq_nil_or_concat z with rfl | ⟨z, b, rfl⟩
      · rw [List.nil_append] at hz
        rw [← hz, ← List.nil_append (':' :: digits), hasLineSuffix_append hdigits] at hw
        cases hw
      · -- the last blank before the word would be the colon or a digit
        have hb : Text.isBlank b = true := hgap b (by simp)
        have hmem : b ∈ ':' :: digits := by rw [hz]; simp
        rcases List.mem_cons.1 hmem with rfl | hmem
        · cases hb
        · rw [Text.not_isBlank_of_isDigit ((Text.isDigits_iff.1 hdigits).2 b hmem)] at hb
          cases hb
  · -- the blank stands before the last character
    have e' : a ++ w ++ [c] = (x ++ ':' :: (digits ++ d :: y)) ++ [d'] := by simp [e]
    exact ha.append_solid hsolid x digits d y (List.append_inj' e' rfl).1 hd

/-- How far `splitFrom` has come in a reference: the words before the current
    one are unbroken and a blank stands behind them. -/
structure InReference (before word : List Char) : Prop where
  startsSolid : StartsSolid (before.reverse ++ word.reverse)
  unbroken : Unbroken before.reverse
  gap : ∀ c ∈ before.head?, Text.isBlank c = true
  solid : ∀ c ∈ word, Text.isBlank c = false

theorem InReference.nil : InReference [] [] where
  startsSolid := by simp [StartsSolid]
  unbroken := by intro a digits c b e; simp at e
  gap := by simp
  solid := by simp

/-- The whole text read so far is unbroken. -/
theorem InReference.unbroken_all {before word : List Char} (h : InReference before word) :
    Unbroken (before.reverse ++ word.reverse) :=
  h.unbroken.append_solid fun c hc => h.solid c (List.mem_reverse.1 hc)

/-- A blank behind a word that does not end a reference. -/
theorem InReference.skip {before word : List Char} {c : Char} (h : InReference before word)
    (hc : Text.isBlank c = true) (hne : before ≠ [] ∨ word ≠ [])
    (hw : hasLineSuffix word.reverse = false) : InReference (c :: (word ++ before)) [] where
  startsSolid := by
    have e : (c :: (word ++ before)).reverse ++ [].reverse =
        (before.reverse ++ word.reverse) ++ [c] := by simp
    rw [e]
    refine h.startsSolid.append fun hnil => ?_
    simp only [List.append_eq_nil_iff, List.reverse_eq_nil_iff] at hnil
    simp [hnil] at hne
  unbroken := by
    have e : (c :: (word ++ before)).reverse = before.reverse ++ word.reverse ++ [c] := by simp
    rw [e]
    refine h.unbroken.append_gap (fun d hd => h.gap d ?_) (fun d hd => h.solid d ?_) hw c
    · simpa using hd
    · simpa using hd
  gap := by simpa using hc
  solid := by simp

/-- Every reference that is split off is unbroken and does not start with a blank. -/
theorem solid_of_mem_splitFrom {before word t x : List Char} (h : InReference before word)
    (hx : x ∈ splitFrom before word t) : StartsSolid x ∧ Unbroken x := by
  induction t generalizing before word with
  | nil =>
    rw [splitFrom] at hx
    split at hx
    · next hw =>
      split at hx
      · cases hx
      · -- the text ends in blanks, which are cut off
        have hx : x = Text.trimEnd before.reverse := by simpa using hx
        obtain ⟨b, hb⟩ := Text.trimEnd_append_exists before.reverse
        have hstart : StartsSolid before.reverse := h.startsSolid.of_append
        have hunbroken := h.unbroken
        rw [hb] at hstart hunbroken
        rw [hx]
        exact ⟨hstart.of_append, hunbroken.of_append⟩
    · have hx : x = before.reverse ++ word.reverse := by simpa using hx
      rw [hx]
      exact ⟨h.startsSolid, h.unbroken_all⟩
  | cons c t ih =>
    rw [splitFrom] at hx
    split at hx
    · next hc =>
      have hc : Text.isBlank c = false := by simpa using hc
      refine ih ⟨?_, h.unbroken, h.gap, ?_⟩ hx
      · have e : before.reverse ++ (c :: word).reverse =
            (before.reverse ++ word.reverse) ++ [c] := by simp
        rw [e]
        exact h.startsSolid.append fun _ => by simpa [StartsSolid] using hc
      · intro d hd
        rcases List.mem_cons.1 hd with rfl | hd
        · exact hc
        · exact h.solid d hd
    · next hc =>
      have hc : Text.isBlank c = true := by simpa using hc
      split at hx
      · next hw =>
        -- a blank behind a blank belongs to the reference only if one has started
        rw [List.isEmpty_iff] at hw
        subst hw
        split at hx
        · exact ih .nil hx
        · next hb =>
          exact ih (h.skip hc (.inl (by simpa using hb)) rfl) hx
      · next hw =>
        -- a blank behind a word, which may end the reference
        split at hx
        · rcases List.mem_cons.1 hx with rfl | hx
          · exact ⟨h.startsSolid, h.unbroken_all⟩
          · exact ih .nil hx
        · next hs => exact ih (h.skip hc (.inr (by simpa using hw)) (by simpa using hs)) hx

/-- Nothing is read that was not there. -/
theorem mem_of_mem_splitFrom {before word t x : List Char} (hx : x ∈ splitFrom before word t)
    {c : Char} (hc : c ∈ x) : c ∈ before ∨ c ∈ word ∨ c ∈ t := by
  induction t generalizing before word with
  | nil =>
    rw [splitFrom] at hx
    split at hx
    · split at hx
      · cases hx
      · obtain ⟨b, hb⟩ := Text.trimEnd_append_exists before.reverse
        have hx : x = Text.trimEnd before.reverse := by simpa using hx
        have : c ∈ before.reverse := by
          rw [hb]
          exact List.mem_append_left b (hx ▸ hc)
        exact .inl (List.mem_reverse.1 this)
    · have hx : x = before.reverse ++ word.reverse := by simpa using hx
      simpa [hx] using hc
  | cons d t ih =>
    -- whichever way the character goes, it came from the text
    have hfrom : ∀ b w : List Char, b ⊆ d :: (word ++ before) → w ⊆ d :: word →
        x ∈ splitFrom b w t → c ∈ before ∨ c ∈ word ∨ c ∈ d :: t := by
      intro b w hb hw hx
      rcases ih hx with h | h | h
      · have hc := hb h
        simp only [List.mem_cons, List.mem_append] at hc ⊢
        tauto
      · have hc := hw h
        simp only [List.mem_cons] at hc ⊢
        tauto
      · exact .inr (.inr (List.mem_cons_of_mem d h))
    rw [splitFrom] at hx
    split at hx
    · refine hfrom before (d :: word) ?_ (List.Subset.refl _) hx
      exact List.subset_cons_of_subset d (List.subset_append_right word before)
    · split at hx
      · refine hfrom _ [] ?_ (List.nil_subset _) hx
        split
        · exact List.nil_subset _
        · exact List.cons_subset_cons d (List.subset_append_right word before)
      · split at hx
        · rcases List.mem_cons.1 hx with rfl | hx
          · have : c ∈ before ∨ c ∈ word := by simpa using hc
            exact this.imp_right .inl
          · exact hfrom [] [] (List.nil_subset _) (List.nil_subset _) hx
        · exact hfrom _ [] (List.Subset.refl _) (List.nil_subset _) hx

/-- A reference is a path, which is not empty, a colon and a count. -/
theorem eq_of_parseReference? {x : List Char} {o : Occurrence} (h : parseReference? x = some o) :
    ∃ path line, x = path ++ ':' :: line ∧ path ≠ [] ∧ Text.count? line = some o.line ∧
      o.path = String.ofList path := by
  unfold parseReference? at h
  obtain ⟨⟨path, line⟩, hcut, hline⟩ := Option.bind_eq_some_iff.1 h
  obtain ⟨n, hn, hpath⟩ := Option.bind_eq_some_iff.1 hline
  obtain ⟨c, hx, hc, -⟩ := Text.splitLast_eq_some_iff.1 hcut
  rw [beq_iff_eq] at hc
  split at hpath
  · cases hpath
  · next hne =>
    cases hpath
    exact ⟨path, line, hc ▸ hx, by simpa using hne, hn, rfl⟩

/-- An occurrence that is read is representable. -/
theorem representable_of_mem_parseReferences {t : List Char} (ht : '\n' ∉ t) {o : Occurrence}
    (ho : o ∈ parseReferences t) : Representable o := by
  obtain ⟨x, hx, hxo⟩ := List.mem_filterMap.1 ho
  obtain ⟨hstart, hunbroken⟩ := solid_of_mem_splitFrom .nil hx
  have hlf : '\n' ∉ x := fun hc => by
    have := mem_of_mem_splitFrom hx hc
    simp [ht] at this
  obtain ⟨path, line, rfl, hpath, hline, hpo⟩ := eq_of_parseReference? hxo
  have hpo : o.path.toList = path := by rw [hpo, String.toList_ofList]
  refine ⟨hpo ▸ ⟨hpath, ?_, hstart.of_append, hunbroken.of_append⟩, Text.lt_of_count?_eq_some hline⟩
  exact fun hc => hlf (List.mem_append_left _ hc)

end Reading

/-! ## Reference lines -/

section Lines

/-- A reference line with some occurrences in it. -/
def referenceLine (os : List Occurrence) : List Char :=
  referenceMark ++ os.flatMap fun o => ' ' :: o.reference

theorem referenceLine_concat (os : List Occurrence) (o : Occurrence) :
    addReference (referenceLine os) o.reference = referenceLine (os ++ [o]) := by
  simp [addReference, referenceLine]

theorem referenceLine_append (os ps : List Occurrence) :
    referenceLine (os ++ ps) = referenceLine os ++ ps.flatMap fun o => ' ' :: o.reference := by
  simp [referenceLine]

theorem length_referenceLine {os : List Occurrence} :
    referenceMark.length < (referenceLine os).length ↔ os ≠ [] := by
  cases os with
  | nil => simp [referenceLine]
  | cons o os => simp [referenceLine]

/-- References end with the digits of a line. -/
theorem exists_digit_of_ne_nil {os : List Occurrence} (h : os ≠ []) :
    ∃ (a : List Char) (c : Char),
      (os.flatMap fun o => ' ' :: o.reference) = a ++ [c] ∧ c.isDigit = true := by
  obtain ⟨os', o, rfl⟩ := (List.eq_nil_or_concat os).resolve_left h
  obtain ⟨ds, d, hd⟩ :=
    (List.eq_nil_or_concat (Nat.toDigits 10 o.line)).resolve_left Nat.toDigits_ne_nil
  refine ⟨(os'.flatMap fun o => ' ' :: o.reference) ++ ' ' :: (o.path.toList ++ ':' :: ds), d,
    ?_, ?_⟩
  · rw [List.concat_eq_append, List.flatMap_append, List.flatMap_singleton, reference_eq, hd]
    simp
  · exact (Text.isDigits_iff.1 (Text.isDigits_toDigits o.line)).2 d (by rw [hd]; simp)

/-- Occurrences in lines that are filled up to a width in bytes. -/
structure Filled (width : Nat) (groups : List (List Occurrence)) : Prop where
  nonempty : ∀ g ∈ groups, g ≠ []
  /-- Only a line with a single reference may be longer. -/
  fits : ∀ g ∈ groups, 2 ≤ g.length → Text.byteLength (referenceLine g) ≤ width
  /-- A line ends where the next reference would make it too long. -/
  greedy : groups.IsChain fun g next =>
    ∀ o ∈ next.head?, width < Text.byteLength (referenceLine (g ++ [o]))

/-- The first line starts with the first occurrence. -/
theorem Filled.head? {width : Nat} {groups : List (List Occurrence)} {o : Occurrence}
    {os : List Occurrence} (h : Filled width groups) (hflat : groups.flatten = o :: os) :
    ∃ g gs, groups = g :: gs ∧ g.head? = some o := by
  cases groups with
  | nil => cases hflat
  | cons g gs =>
    obtain ⟨o', g', rfl⟩ := List.exists_cons_of_ne_nil (h.nonempty g List.mem_cons_self)
    rw [List.flatten_cons, List.cons_append] at hflat
    cases hflat
    exact ⟨_, gs, rfl, rfl⟩

theorem isFull_referenceLine {os : List Occurrence} {o : Occurrence} :
    isFull (referenceLine os) o.reference = true ↔
      os ≠ [] ∧ referenceWidth < Text.byteLength (referenceLine (os ++ [o])) := by
  have hsize : Text.byteLength (referenceLine (os ++ [o])) =
      Text.byteLength (referenceLine os) + 1 + Text.byteLength o.reference := by
    rw [← referenceLine_concat, addReference, Text.byteLength_append, Nat.add_assoc]
    congr 1
    exact Text.byteLength_append [' '] o.reference
  rw [isFull, Bool.and_eq_true, decide_eq_true_eq, decide_eq_true_eq, length_referenceLine, hsize]

/-- The lines that are written hold the occurrences in order and are filled.
    The invariant is that the started line is not too long. -/
theorem referenceLinesFrom_filled (started os : List Occurrence)
    (hstarted : 2 ≤ started.length → Text.byteLength (referenceLine started) ≤ referenceWidth) :
    ∃ groups : List (List Occurrence),
      referenceLinesFrom (referenceLine started) (os.map Occurrence.reference) =
        groups.map referenceLine ∧
      groups.flatten = started ++ os ∧ Filled referenceWidth groups := by
  induction os generalizing started with
  | nil =>
    rw [List.map_nil, referenceLinesFrom]
    split
    · next h =>
      refine ⟨[started], by simp, by simp, ?_, ?_, .singleton _⟩
      · simpa using length_referenceLine.1 h
      · simpa using hstarted
    · next h =>
      rw [length_referenceLine, Decidable.not_not] at h
      exact ⟨[], by simp, by simp [h], by simp, by simp, .nil⟩
  | cons o os ih =>
    rw [List.map_cons, referenceLinesFrom]
    split
    · next h =>
      -- the started line is full, so a new one starts with `o`
      obtain ⟨hne, hlong⟩ := isFull_referenceLine.1 h
      obtain ⟨gs, hlines, hflat, hfilled⟩ := ih [o] (by simp)
      obtain ⟨next, rest, rfl, hnext⟩ := hfilled.head? hflat
      refine ⟨started :: next :: rest, ?_, by simp [hflat], ?_, ?_, ?_⟩
      · have hnew : addReference referenceMark o.reference = referenceLine [o] :=
          referenceLine_concat [] o
        rw [hnew, hlines]
        rfl
      · exact List.forall_mem_cons.2 ⟨hne, hfilled.nonempty⟩
      · exact List.forall_mem_cons.2 ⟨hstarted, hfilled.fits⟩
      · refine List.isChain_cons_cons.2 ⟨fun o' ho' => ?_, hfilled.greedy⟩
        rw [hnext] at ho'
        cases ho'
        exact hlong
    · next h =>
      have hroom : 2 ≤ (started ++ [o]).length →
          Text.byteLength (referenceLine (started ++ [o])) ≤ referenceWidth := by
        intro htwo
        have hne : started ≠ [] := by
          rintro rfl
          simp at htwo
        exact Nat.le_of_not_lt fun hlong => h (isFull_referenceLine.2 ⟨hne, hlong⟩)
      obtain ⟨gs, hlines, hflat, hfilled⟩ := ih (started ++ [o]) hroom
      refine ⟨gs, ?_, by simp [hflat], hfilled⟩
      rw [referenceLine_concat, hlines]

theorem referenceLines_filled (os : List Occurrence) :
    ∃ groups : List (List Occurrence), referenceLines os = groups.map referenceLine ∧
      groups.flatten = os ∧ Filled referenceWidth groups :=
  referenceLinesFrom_filled [] os (by simp)

/-- The occurrences that are read from a reference line. -/
def lineOccurrences (l : List Char) : List Occurrence :=
  parseReferences (l.drop referenceMark.length)

/-- The occurrences that the reference lines of some occurrences are read as. -/
def reread (os : List Occurrence) : List Occurrence := (referenceLines os).flatMap lineOccurrences

theorem reread_of_representable {os : List Occurrence} (h : ∀ o ∈ os, Representable o) :
    reread os = os := by
  obtain ⟨groups, hlines, hflat, -⟩ := referenceLines_filled os
  have hg : ∀ g ∈ groups, lineOccurrences (referenceLine g) = g := by
    intro g hg
    have hrep : ∀ o ∈ g, Representable o := fun o ho =>
      h o (hflat ▸ List.mem_flatten.2 ⟨g, hg, ho⟩)
    rw [lineOccurrences, referenceLine, List.drop_left, parseReferences_of_representable hrep]
  calc reread os
      = (groups.map fun g => lineOccurrences (referenceLine g)).flatten := by
        rw [reread, hlines, List.flatMap_map, List.flatMap]
    _ = (groups.map fun g => g).flatten := by rw [List.map_congr_left hg]
    _ = os := by rw [List.map_id', hflat]

end Lines

end MessageHarvest.Catalog
