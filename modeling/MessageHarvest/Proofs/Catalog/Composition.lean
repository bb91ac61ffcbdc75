import MessageHarvest.Proofs.Catalog.Entries

/-! # Catalogs one behind the other

    Two catalogs with a blank line between them are read like each of them
    alone. The blank line ends what the first one left open, but it does not
    always clear the state: behind a `msgctxt` without a message the context
    stays open, since such an entry counts as empty. That is the only trace of
    the first catalog, and the second one never gets to see it, because a
    string would have to follow directly.

    * `Entry.Like`: the entries between which a catalog cannot tell.
    * `Delivers.like`: from like entries the same lines end the same entries.
    * `Entry.Tidy`: what is left behind a blank line is like nothing at all.
    * `parse_joined`: the entries of both catalogs are read, those of the first
      one before those of the second one. -/

namespace MessageHarvest.Catalog

/-! ## Like entries -/

/-- Two entries are alike if they are the same, or if they have no text and
    differ in the context that one of them stands behind. -/
def Entry.Like (e d : Entry) : Prop :=
  e = d ∨ (d.singular = none ∧ d.open? = none ∧ e = { d with open? := some .msgctxt })

theorem Entry.Like.refl (e : Entry) : e.Like e := .inl rfl

section Like

variable {e d d' : Entry} {x : Line}

/-- Behind a context that nothing followed, a line does what it does without
    the context. -/
theorem begin_behind_context (hs : d.singular = none) (ho : d.open? = none)
    (h : d.begin x = some d') :
    ∃ e', { d with open? := some .msgctxt }.begin x = some e' ∧ e'.Like d' := by
  cases x with
  | blank =>
    by_cases hr : d.references.isEmpty = true
    · obtain rfl : d = d' := by simpa [Entry.begin, hr] using h
      exact ⟨{ d with open? := some .msgctxt }, by simp [Entry.begin, hr], .inr ⟨hs, ho, rfl⟩⟩
    · simp [Entry.begin, hr] at h
  | comment =>
    cases h
    exact ⟨_, rfl, .inr ⟨hs, ho, rfl⟩⟩
  | references os =>
    cases h
    exact ⟨_, rfl, .inr ⟨hs, ho, rfl⟩⟩
  | string text =>
    -- without the context there is nothing that a string could continue
    simp [Entry.begin, Entry.extend, ho, Except.toOption] at h
  | field k text =>
    -- a field says anew what is continued, so that the context is forgotten
    cases k with
    | msgctxt =>
      cases h
      exact ⟨_, rfl, .refl _⟩
    | msgid =>
      cases h
      exact ⟨_, rfl, .refl _⟩
    | msgidPlural => cases h
    | msgstr => cases h

/-- A line that goes on from an entry goes on from a like one, and if it ends
    them they are the same. -/
theorem Entry.Like.next (h : e.Like d) (hd : d.Next x d') :
    (e.endsAt x = d.endsAt x ∧ (d.endsAt x = true → e = d)) ∧ ∃ e', e.Next x e' ∧ e'.Like d' := by
  rcases h with rfl | ⟨hs, ho, rfl⟩
  · exact ⟨⟨rfl, fun _ => rfl⟩, d', hd, .refl d'⟩
  · have hbegin := (next_iff_begin hs).1 hd
    have hend := endsAt_of_begin hs hbegin
    obtain ⟨e', he', hlike⟩ := begin_behind_context hs ho hbegin
    have hs' : { d with open? := some .msgctxt }.singular = none := hs
    refine ⟨⟨?_, fun hx => ?_⟩, e', (next_iff_begin hs').2 he', hlike⟩
    · rw [hend, endsAt_of_begin hs' he']
    · rw [hend] at hx
      cases hx

/-- From like entries the same lines can be read, and end the same entries. -/
theorem Delivers.like {s t t' : State} {ls : List (List Char)} {es : List Entry}
    (h : Delivers t ls es t') (hlike : s.entry.Like t.entry) :
    ∃ s', Delivers s ls es s' ∧ s'.entry.Like t'.entry := by
  induction h generalizing s with
  | nil t => exact ⟨s, .nil s, hlike⟩
  | @cons t₁ t₂ t₃ l x ls es hx hstep _ ih =>
    obtain ⟨⟨hends, hsame⟩, e', he, hlike'⟩ := hlike.next (next_of_step hstep)
    obtain ⟨s₂, hs, rfl⟩ := exists_step_of_next he
    obtain ⟨s', hrest, hlast⟩ := ih hlike'
    -- the entry that is ended is the same on both sides
    have hended : (if s.entry.endsAt x then [s.entry] else []) =
        if t₁.entry.endsAt x then [t₁.entry] else [] := by
      by_cases hend : t₁.entry.endsAt x = true
      · rw [hsame hend]
      · rw [hends, if_neg hend, if_neg hend]
    exact ⟨s', hended ▸ .cons hx hs hrest, hlast⟩

end Like

/-! ## What a blank line leaves -/

/-- An entry without a text is what its references make of an empty one, but
    for a context. -/
def Entry.Tidy (e : Entry) : Prop := e.singular = none → e.Like { references := e.references }

section Tidy

variable {e e' : Entry} {x : Line}

theorem Entry.tidy_empty : ({} : Entry).Tidy := fun _ => .refl _

theorem Entry.tidy_of_isSome (h : e.singular.isSome = true) : e.Tidy := by
  intro hs
  rw [hs] at h
  cases h

theorem Entry.Tidy.begin (h : e.Tidy) (hs : e.singular = none) (hx : e.begin x = some e') :
    e'.Tidy := by
  intro hs'
  cases x with
  | blank =>
    by_cases hr : e.references.isEmpty = true
    · obtain rfl : e = e' := by simpa [Entry.begin, hr] using hx
      exact h hs
    · simp [Entry.begin, hr] at hx
  | comment =>
    cases hx
    exact h hs
  | references os =>
    cases hx
    rcases h hs with he | ⟨-, -, he⟩
    · left
      rw [he]
    · right
      rw [he]
      exact ⟨rfl, rfl, rfl⟩
  | string text =>
    -- only a context can be continued here, and its text is not kept
    rcases h hs with he | ⟨-, -, he⟩
    · rw [he] at hx
      cases hx
    · have hextend : e.extend text = .ok e := by
        rw [he]
        rfl
      obtain rfl : e = e' := by simpa [Entry.begin, hextend, Except.toOption] using hx
      exact h hs
  | field k text =>
    cases k with
    | msgctxt =>
      cases hx
      right
      rcases h hs with he | ⟨-, -, he⟩
      · rw [he]
        exact ⟨rfl, rfl, rfl⟩
      · rw [he]
        exact ⟨rfl, rfl, rfl⟩
    | msgid =>
      cases hx
      cases hs'
    | msgidPlural => cases hx
    | msgstr => cases hx

theorem Entry.Tidy.next (h : e.Tidy) (hx : e.Next x e') : e'.Tidy := by
  by_cases hend : e.endsAt x = true
  · exact Entry.tidy_empty.begin rfl ((next_iff_begin rfl).1 (next_of_endsAt hend hx))
  · cases hs : e.singular with
    | none => exact h.begin hs ((next_iff_begin hs).1 hx)
    | some text =>
      refine Entry.tidy_of_isSome (isSome_of_next ?_ (by simpa using hend) hx)
      rw [hs]
      rfl

theorem Delivers.tidy {s s' : State} {ls : List (List Char)} {es : List Entry}
    (h : Delivers s ls es s') (hs : s.entry.Tidy) : s'.entry.Tidy := by
  induction h with
  | nil => exact hs
  | cons _ hstep _ ih => exact ih (hs.next (next_of_step hstep))

/-- Behind a blank line there is nothing, or nothing but a context. -/
theorem Entry.Tidy.blank (h : e.Tidy) (hx : e.Next .blank e') : e'.Like {} := by
  by_cases hempty : e.isEmpty = true
  · have hboth : e.singular = none ∧ e.references = [] := by
      simpa [Entry.isEmpty] using hempty
    obtain rfl : e = e' := by
      simpa [Entry.begin, hboth.2] using (next_iff_begin hboth.1).1 hx
    simpa [hboth.2] using h hboth.1
  · have hend : e.endsAt .blank = true := by simpa [Entry.endsAt] using hempty
    obtain rfl : {} = e' := by
      simpa [Entry.begin] using (next_iff_begin rfl).1 (next_of_endsAt hend hx)
    exact .refl _

theorem Delivers.like_empty {s : State} {ls : List (List Char)} {es : List Entry}
    (h : Delivers {} (ls ++ [[]]) es s) : s.entry.Like {} := by
  obtain ⟨s', hr, hlast⟩ := h.reads.exists_of_append
  have htidy : s'.entry.Tidy := hr.delivers.tidy Entry.tidy_empty
  cases hlast with
  | cons hstep hnil =>
    cases hnil
    have hblank : s'.step .blank = .ok s := hstep
    exact htidy.blank (next_of_step hblank)

/-- A second blank line does nothing. -/
theorem delivers_blank {s : State} (h : s.entry.Like {}) : Delivers s [[]] [] s := by
  have hempty : s.entry.isEmpty = true := by
    rcases h with he | ⟨-, -, he⟩
    · rw [he]
      rfl
    · rw [he]
      rfl
  have hstep : s.step .blank = .ok s := if_pos hempty
  have hend : s.entry.endsAt .blank = false := by simp [Entry.endsAt, hempty]
  have hrun : Delivers s [[]] _ s := .cons rfl hstep (.nil s)
  simpa [hend] using hrun

end Tidy

/-! ## Two catalogs -/

/-- Behind the last line of a catalog and a blank line, its entries are ended,
    whether or not the last line had an end of its own. -/
theorem Delivers.feed {a : List Char} {s : State} {es : List Entry}
    (h : Delivers {} (Text.lines a ++ [[]]) es s) :
    Delivers {} (Text.lines (a ++ ['\n']) ++ [[]]) es s := by
  rcases Text.lines_concat_feed a with hlines | ⟨ls, l, hold, hnew⟩
  · rw [hlines]
    simpa using h.append (delivers_blank h.like_empty)
  · rw [hnew]
    rw [hold] at h
    exact h.congr (by simp)

theorem lines_joined (a b : List Char) :
    Text.lines (a ++ ['\n', '\n'] ++ b) = Text.lines (a ++ ['\n']) ++ [[]] ++ Text.lines b := by
  have hblank : Text.lines ('\n' :: b) = [[]] ++ Text.lines b := Text.lines_append_feed [] b
  rw [List.append_assoc, List.cons_append, Text.lines_append_feed, List.append_assoc]
  exact congrArg _ hblank

section FirstAppearance

variable {α : Type} [BEq α] [LawfulBEq α]

theorem eraseDups_filter (p : α → Bool) (as : List α) :
    (as.filter p).eraseDups = as.eraseDups.filter p := by
  match as with
  | [] => rfl
  | a :: as =>
    have hlen : (as.filter fun b => !b == a).length < as.length + 1 :=
      Nat.lt_succ_of_le (List.length_filter_le _ as)
    have ih := eraseDups_filter p (as.filter fun b => !b == a)
    by_cases hp : p a = true
    · rw [List.filter_cons_of_pos hp, List.eraseDups_cons, List.eraseDups_cons,
        List.filter_cons_of_pos hp, ← ih, List.filter_filter, List.filter_filter]
      simp only [Bool.and_comm]
    · -- the copies of an element that is left out are left out with it
      have hsame : (as.filter fun b => !b == a).filter p = as.filter p := by
        rw [List.filter_filter]
        refine List.filter_congr fun b _ => ?_
        by_cases hb : b = a
        · simp [hb, hp]
        · simp [hb]
      rw [List.filter_cons_of_neg hp, List.eraseDups_cons, List.filter_cons_of_neg hp, ← ih, hsame]
termination_by as.length

end FirstAppearance

/-- A store that holds what two stores hold, with the keys of the first one in
    their order and then the other keys of the second one in theirs. -/
structure Joins (a b joined : Store) : Prop where
  contains : ∀ k, joined.contains k = true ↔ a.contains k = true ∨ b.contains k = true
  occurs : ∀ k o, joined.Occurs k o ↔ a.Occurs k o ∨ b.Occurs k o
  order : joined.sorted.map Message.key =
    a.sorted.map Message.key ++ (b.sorted.map Message.key).filter fun k => !a.contains k

theorem Gains.joins {es es' : List Entry} {a b c : Store} (ha : Gains .empty es a)
    (hb : Gains .empty es' b) (hc : Gains .empty (es ++ es') c) : Joins a b c where
  contains k := by
    rw [hc.contains, ha.contains, hb.contains]
    simp only [Store.contains_empty, Bool.false_eq_true, false_or, List.mem_append, or_and_right,
      exists_or]
  occurs k o := by
    rw [hc.occurs, ha.occurs, hb.occurs]
    simp only [Store.not_occurs_empty, false_or, List.mem_append, or_and_right, exists_or]
  order := by
    have hnone : Store.empty.sorted.map Message.key = [] := by simp [Store.sorted]
    have hmem : ∀ k, (es.filterMap Entry.key?).elem k = a.contains k := by
      intro k
      rw [Bool.eq_iff_iff, ha.contains]
      simp
    rw [hc.order, ha.order, hb.order, hnone, List.nil_append, List.nil_append, List.nil_append,
      List.filterMap_append, List.eraseDups_append, List.removeAll, eraseDups_filter]
    simp only [hmem]

/-- Two catalogs that can be read can be read one behind the other. The entries
    are those of the first catalog and then those of the second one, each as it
    is in its own catalog, so that nothing of the first one gets into the second
    one. -/
theorem parse_joined {a b : List Char} {sa sb : Store} (ha : parse a = .ok sa)
    (hb : parse b = .ok sb) :
    entries (a ++ ['\n', '\n'] ++ b) = entries a ++ entries b ∧
      ∃ s, parse (a ++ ['\n', '\n'] ++ b) = .ok s ∧ Joins sa sb s := by
  obtain ⟨s₁, hd₁, -⟩ := parse_eq_ok_iff_delivers.1 ha
  obtain ⟨t, hd₂, -⟩ := parse_eq_ok_iff_delivers.1 hb
  -- the second catalog cannot tell what the first one left from nothing
  obtain ⟨s₂, hd₂', -⟩ := hd₂.like hd₁.like_empty
  have hboth := hd₁.feed.append hd₂'
  rw [← List.append_assoc, ← lines_joined] at hboth
  have hentries : entries (a ++ ['\n', '\n'] ++ b) = entries a ++ entries b := hboth.endedIn_eq
  have hparse : parse (a ++ ['\n', '\n'] ++ b) = .ok s₂.store :=
    parse_eq_ok_iff_delivers.2 ⟨s₂, hentries ▸ hboth, rfl⟩
  refine ⟨hentries, s₂.store, hparse, (gains_of_parse ha).joins (gains_of_parse hb) ?_⟩
  rw [← hentries]
  exact gains_of_parse hparse

/-- A catalog that ends in a context without a message, and without a line feed. -/
def openEnded : List Char := "#: x:1\nmsgid \"one\"\nmsgstr \"t\"\n\nmsgctxt \"menu\"".toList

/-- A catalog with a plural, and with a message of `openEnded`. -/
def continuing : List Char :=
  ("#: y:2\nmsgid \"two\"\nmsgid_plural \"twos\"\nmsgstr[0] \"\"\n\"\"\n" ++
    "#: z:3\nmsgid \"one\"\nmsgstr \"\"").toList

/-- What `openEnded` is read as. -/
def openEndedStore : Store := .ofList [⟨⟨"one", none⟩, .at 0, .ofList [⟨"x", 1⟩]⟩]

/-- What `continuing` is read as. -/
def continuingStore : Store :=
  .ofList [⟨⟨"two", some "twos"⟩, .at 0, .ofList [⟨"y", 2⟩]⟩,
    ⟨⟨"one", none⟩, .at 1, .ofList [⟨"z", 3⟩]⟩]

theorem parse_joined_sample :
    parse openEnded = .ok openEndedStore ∧ parse continuing = .ok continuingStore ∧
    entries (openEnded ++ ['\n', '\n'] ++ continuing) = entries openEnded ++ entries continuing ∧
    ∃ s, parse (openEnded ++ ['\n', '\n'] ++ continuing) = .ok s ∧
      Joins openEndedStore continuingStore s := by
  have ha : parse openEnded = .ok openEndedStore := by
    unfold openEnded
    rewrite [String.toList_ofList]
    decide +kernel
  have hb : parse continuing = .ok continuingStore := by
    unfold continuing
    rewrite [String.toList_append]
    iterate 2 rewrite [String.toList_ofList]
    decide +kernel
  exact ⟨ha, hb, parse_joined ha hb⟩

end MessageHarvest.Catalog
