import MessageHarvest.Proofs.Catalog.Reading
import MessageHarvest.Proofs.Message.Merge

/-! # A catalog is the list of its entries

    The reader keeps a store and an open entry, but the store takes no part in
    reading: what a line does depends on the open entry alone (`step_frame`),
    and the store only takes the entries that are ended, one after the other.

    * `Entry.Next`, `step_eq_ok_iff`: all that a line does.
    * `next_of_endsAt`: a line that ends an entry goes on as at the start, so
      nothing of the entry is left.
    * `Delivers`: the entries that are ended by some lines. The end of a text
      acts like a blank line (`parse_eq_ok_iff_delivers`).
    * `Delivers.gains`: a store holds what its entries say, in their order. -/

namespace MessageHarvest.Catalog

/-! ## A line and the entry before it -/

/-- Whether a line ends the entry that is open. -/
def Entry.endsAt (e : Entry) : Line → Bool
  | .blank => !e.isEmpty
  | .references _ | .field .msgctxt _ | .field .msgid _ => e.singular.isSome
  | _ => false

/-- A state in which nothing but an entry has been read. -/
def State.ofEntry (e : Entry) : State := { entry := e }

theorem close_frame (s : State) :
    s.close = (State.ofEntry s.entry).close.map fun t => { s.closed with entry := t.entry } := by
  unfold State.close State.closed Entry.key? State.ofEntry
  cases s.entry.singular with
  | none =>
    by_cases hr : s.entry.references.isEmpty = true
    · simp [hr, Except.map]
    · simp [hr, Except.map]
  | some text =>
    cases text with
    | nil => simp [Except.map]
    | cons c text =>
      by_cases hm : s.entry.hasMsgstr = true
      · simp [hm, Except.map, State.push]
      · simp [hm, Except.map]

theorem opened_frame (s : State) :
    s.opened = (State.ofEntry s.entry).opened.map fun t =>
      { (if s.entry.singular.isSome then s.closed else s) with entry := t.entry } := by
  have hclose := close_frame s
  unfold State.opened
  cases hs : s.entry.singular with
  | none => simp [State.ofEntry, hs, Except.map]
  | some text =>
    by_cases hm : s.entry.hasMsgstr = true
    · simpa [State.ofEntry, hs, hm] using hclose
    · simp [State.ofEntry, hs, hm, Except.map]

/-- What a line does depends on the open entry alone. The store only takes the
    entry that the line ends. -/
theorem step_frame (s : State) (x : Line) :
    s.step x = ((State.ofEntry s.entry).step x).map fun t =>
      { (if s.entry.endsAt x then s.closed else s) with entry := t.entry } := by
  cases x with
  | blank =>
    have hclose := close_frame s
    by_cases he : s.entry.isEmpty = true
    · simp [State.step, State.ofEntry, Entry.endsAt, he, Except.map]
    · simpa [State.step, State.ofEntry, Entry.endsAt, he] using hclose
  | comment => rfl
  | references os =>
    have hclose := close_frame s
    rw [step_references, step_references]
    by_cases hs : s.entry.singular.isSome = true
    · simp only [State.ofEntry, Entry.endsAt, hs, if_true] at hclose ⊢
      rw [hclose]
      cases State.close { entry := s.entry } <;> rfl
    · simp [State.ofEntry, Entry.endsAt, hs, Except.map, bind, Except.bind]
  | string text =>
    simp only [State.step, State.ofEntry, Entry.endsAt]
    cases s.entry.extend text <;> rfl
  | field k text =>
    cases k with
    | msgctxt =>
      rw [State.step, State.step, field_msgctxt, field_msgctxt, opened_frame, Entry.endsAt]
      cases (State.ofEntry s.entry).opened <;> rfl
    | msgid =>
      rw [State.step, State.step, field_msgid, field_msgid, opened_frame, Entry.endsAt]
      cases (State.ofEntry s.entry).opened <;> rfl
    | msgidPlural | msgstr =>
      by_cases hs : s.entry.singular.isNone = true
      · simp only [State.step, State.field, State.ofEntry, hs, if_true]
        rfl
      · simp only [State.step, State.field, State.ofEntry, hs]
        rfl

/-- The entry that is open behind a line, given the one before it. -/
def Entry.Next (e : Entry) (x : Line) (e' : Entry) : Prop :=
  ∃ t, (State.ofEntry e).step x = .ok t ∧ t.entry = e'

/-- All that a line does: the entry before it goes to the store if the line
    ends it, and another entry is open. -/
theorem step_eq_ok_iff {s s' : State} {x : Line} :
    s.step x = .ok s' ↔ ∃ e, s.entry.Next x e ∧
      s' = { (if s.entry.endsAt x then s.closed else s) with entry := e } := by
  rw [step_frame, map_eq_ok_iff]
  constructor
  · rintro ⟨t, ht, rfl⟩
    exact ⟨t.entry, ⟨t, ht, rfl⟩, rfl⟩
  · rintro ⟨e, ⟨t, ht, rfl⟩, rfl⟩
    exact ⟨t, ht, rfl⟩

theorem exists_step_of_next {s : State} {x : Line} {e : Entry} (h : s.entry.Next x e) :
    ∃ s', s.step x = .ok s' ∧ s'.entry = e :=
  ⟨_, step_eq_ok_iff.2 ⟨e, h, rfl⟩, rfl⟩

theorem next_of_step {s s' : State} {x : Line} (h : s.step x = .ok s') :
    s.entry.Next x s'.entry := by
  obtain ⟨e, he, rfl⟩ := step_eq_ok_iff.1 h
  exact he

/-! ## Entries with and without a text -/

section Next

variable {e e' : Entry} {x : Line}

/-- What a line makes of an entry without a text. -/
def Entry.begin (e : Entry) : Line → Option Entry
  | .blank => if e.references.isEmpty then some e else none
  | .comment => some e
  | .references os => some { e with references := e.references ++ os }
  | .string text => (e.extend text).toOption
  | .field .msgctxt _ => some { e with open? := some .msgctxt }
  | .field .msgid text => some { e with singular := some text, open? := some .msgid }
  | .field .msgidPlural _ | .field .msgstr _ => none

theorem next_iff_begin (hs : e.singular = none) : e.Next x e' ↔ e.begin x = some e' := by
  unfold Entry.Next
  cases x with
  | blank =>
    by_cases hr : e.references = []
    · simp [State.step, State.ofEntry, Entry.isEmpty, Entry.begin, hs, hr]
    · -- references alone are no entry that could be closed
      simp [State.step, State.close, State.ofEntry, Entry.isEmpty, Entry.begin, hs, hr]
  | comment => simp [State.step, State.ofEntry, Entry.begin]
  | references os => simp [step_references, State.ofEntry, Entry.begin, hs, bind, Except.bind]
  | string text =>
    simp only [State.step, State.ofEntry, Entry.begin]
    cases e.extend text <;> simp [bind, Except.bind, Except.toOption, pure, Except.pure]
  | field k text =>
    cases k with
    | msgctxt =>
      simp [State.step, field_msgctxt, State.opened, State.ofEntry, Entry.begin, hs, bind,
        Except.bind]
    | msgid =>
      simp [State.step, field_msgid, State.opened, State.ofEntry, Entry.begin, hs, bind,
        Except.bind]
    | msgidPlural => simp [State.step, State.field, State.ofEntry, Entry.begin, hs]
    | msgstr => simp [State.step, State.field, State.ofEntry, Entry.begin, hs]

/-- An entry without a text is not ended by a line that can be read. -/
theorem endsAt_of_begin (hs : e.singular = none) (h : e.begin x = some e') :
    e.endsAt x = false := by
  cases x with
  | blank =>
    by_cases hr : e.references.isEmpty = true
    · simp [Entry.endsAt, Entry.isEmpty, hs, hr]
    · simp [Entry.begin, hr] at h
  | comment => rfl
  | references os => simp [Entry.endsAt, hs]
  | string text => rfl
  | field k text => cases k <;> simp [Entry.endsAt, hs]

theorem entry_of_close {s s' : State} (h : s.close = .ok s') : s'.entry = {} := by
  rw [close_eq_closed h]
  exact s.entry_closed

theorem entry_of_opened {s s' : State} (hs : s.entry.singular.isSome = true)
    (h : s.opened = .ok s') : s'.entry = {} := by
  obtain ⟨text, ht⟩ := Option.isSome_iff_exists.1 hs
  unfold State.opened at h
  by_cases hm : s.entry.hasMsgstr = true
  · exact entry_of_close (by simpa [ht, hm] using h)
  · simp [ht, hm] at h

/-- A line that ends an entry goes on as at the start. -/
theorem next_of_endsAt (hx : e.endsAt x = true) (h : e.Next x e') : ({} : Entry).Next x e' := by
  obtain ⟨t, ht, rfl⟩ := h
  rw [next_iff_begin rfl]
  cases x with
  | blank =>
    have he : e.isEmpty = false := by simpa [Entry.endsAt] using hx
    have hclose : (State.ofEntry e).close = .ok t := by
      simpa [State.step, State.ofEntry, he] using ht
    rw [entry_of_close hclose]
    rfl
  | comment => cases hx
  | references os =>
    have hs : (State.ofEntry e).entry.singular.isSome = true := hx
    rw [step_references, if_pos hs] at ht
    obtain ⟨t', hclose, h⟩ := bind_eq_ok_iff.1 ht
    cases h
    rw [entry_of_close hclose]
    rfl
  | string text => cases hx
  | field k text =>
    cases k with
    | msgctxt =>
      have hs : (State.ofEntry e).entry.singular.isSome = true := hx
      rw [State.step, field_msgctxt] at ht
      obtain ⟨t', hopened, h⟩ := bind_eq_ok_iff.1 ht
      cases h
      rw [entry_of_opened hs hopened]
      rfl
    | msgid =>
      have hs : (State.ofEntry e).entry.singular.isSome = true := hx
      rw [State.step, field_msgid] at ht
      obtain ⟨t', hopened, h⟩ := bind_eq_ok_iff.1 ht
      cases h
      rw [entry_of_opened hs hopened]
      rfl
    | msgidPlural => cases hx
    | msgstr => cases hx

/-- A text stays until a line ends its entry. -/
theorem isSome_of_next (hs : e.singular.isSome = true) (hx : e.endsAt x = false)
    (h : e.Next x e') : e'.singular.isSome = true := by
  obtain ⟨t, ht, rfl⟩ := h
  have hsame : (State.ofEntry e).entry.singular.isSome = true := hs
  cases x with
  | blank => simp [Entry.endsAt, Entry.isEmpty, hs] at hx
  | comment =>
    cases ht
    exact hsame
  | references os => simp [Entry.endsAt, hs] at hx
  | string text =>
    obtain ⟨e', he', h⟩ := bind_eq_ok_iff.1 ht
    cases h
    show e'.singular.isSome = true
    unfold Entry.extend at he'
    split at he' <;> cases he'
    · exact hsame
    · exact hsame
    · -- a continued text is a text
      simpa using hsame
    · exact hsame
  | field k text =>
    cases k with
    | msgctxt => simp [Entry.endsAt, hs] at hx
    | msgid => simp [Entry.endsAt, hs] at hx
    | msgidPlural | msgstr =>
      simp only [State.step, State.field] at ht
      split at ht <;> cases ht
      exact hsame

end Next

/-! ## Runs of the reader with the entries that they end -/

/-- Reading lines without a problem, which ends some entries on the way. -/
inductive Delivers : State → List (List Char) → List Entry → State → Prop where
  | nil (s : State) : Delivers s [] [] s
  | cons {s s' s'' : State} {l : List Char} {x : Line} {ls : List (List Char)} {es : List Entry} :
      Line.parse l = .ok x → s.step x = .ok s' → Delivers s' ls es s'' →
      Delivers s (l :: ls) ((if s.entry.endsAt x then [s.entry] else []) ++ es) s''

/-- The entries that are ended by some lines. -/
def endedIn (s : State) : List (List Char) → List Entry
  | [] => []
  | l :: ls =>
    match Line.parse l with
    | .error _ => []
    | .ok x =>
      match s.step x with
      | .error _ => []
      | .ok s' => (if s.entry.endsAt x then [s.entry] else []) ++ endedIn s' ls

/-- The entries of a catalog. What is left open at the end is ended like by a
    blank line. -/
def entries (text : List Char) : List Entry := endedIn {} (Text.lines text ++ [[]])

section Delivers

variable {s s' s'' : State} {ls ls' : List (List Char)} {es es' : List Entry}

theorem Delivers.endedIn_eq (h : Delivers s ls es s') : endedIn s ls = es := by
  induction h with
  | nil s => rfl
  | cons hx hs _ ih => simp only [endedIn, hx, hs, ih]

theorem Delivers.reads (h : Delivers s ls es s') : Reads s ls s' := by
  induction h with
  | nil s => exact .nil s
  | cons hx hs _ ih => exact .cons ((stepText_of_parse hx).trans hs) ih

theorem Reads.delivers (h : Reads s ls s') : Delivers s ls (endedIn s ls) s' := by
  induction h with
  | nil s => exact .nil s
  | @cons s₁ s₂ s₃ l ls hstep _ ih =>
    obtain ⟨x, hx, hs⟩ := bind_eq_ok_iff.1 hstep
    have hended : endedIn s₁ (l :: ls) =
        (if s₁.entry.endsAt x then [s₁.entry] else []) ++ endedIn s₂ ls := by
      simp only [endedIn, hx, hs]
    rw [hended]
    exact .cons hx hs ih

theorem Delivers.append (h : Delivers s ls es s') (h' : Delivers s' ls' es' s'') :
    Delivers s (ls ++ ls') (es ++ es') s'' := by
  induction h with
  | nil => exact h'
  | cons hx hs _ ih =>
    rw [List.append_assoc]
    exact .cons hx hs (ih h')

/-- Only what a line is counts, not how it is written. -/
theorem Delivers.congr (h : Delivers s ls es s') (hls : ls'.map Line.parse = ls.map Line.parse) :
    Delivers s ls' es s' := by
  induction h generalizing ls' with
  | nil s =>
    rw [List.map_eq_nil_iff.1 hls]
    exact .nil s
  | cons hx hs _ ih =>
    obtain ⟨l', rest, rfl, hl', hrest⟩ := List.map_eq_cons_iff.1 hls
    exact .cons (hl'.trans hx) hs (ih hrest)

/-- A catalog that can be read is read as its entries are ended, and the end
    acts like a blank line. -/
theorem parse_eq_ok_iff_delivers {text : List Char} {store : Store} :
    parse text = .ok store ↔
      ∃ s, Delivers {} (Text.lines text ++ [[]]) (entries text) s ∧ s.store = store := by
  rw [parse_eq_ok_iff]
  constructor
  · rintro ⟨s, s', hr, hf, rfl⟩
    have hlast : Reads s [[]] s' := .cons hf (.nil s')
    exact ⟨s', (hr.append hlast).delivers, rfl⟩
  · rintro ⟨s', h, rfl⟩
    obtain ⟨s, hr, hlast⟩ := h.reads.exists_of_append
    cases hlast with
    | cons hf hnil =>
      cases hnil
      exact ⟨s, s', hr, hf, rfl⟩

end Delivers

/-! ## What the entries say -/

/-- A store `b` holds what a store `a` holds and what some entries say; keys
    that are new come behind the others, in the order of the entries. -/
structure Gains (a : Store) (es : List Entry) (b : Store) : Prop where
  contains : ∀ k, b.contains k = true ↔ a.contains k = true ∨ ∃ e ∈ es, e.key? = some k
  occurs : ∀ k o, b.Occurs k o ↔ a.Occurs k o ∨ ∃ e ∈ es, e.key? = some k ∧ o ∈ e.references
  order : b.sorted.map Message.key =
    (a.sorted.map Message.key ++ es.filterMap Entry.key?).eraseDups

section Gains

variable {a b c : Store} {es es' : List Entry}

theorem Gains.refl (a : Store) : Gains a [] a where
  contains k := by simp
  occurs k o := by simp
  order := by
    rw [List.filterMap_nil, List.append_nil, eraseDups_of_nodup a.nodup_sorted_keys]

theorem Gains.trans (h : Gains a es b) (h' : Gains b es' c) : Gains a (es ++ es') c where
  contains k := by
    rw [h'.contains, h.contains, or_assoc]
    simp only [List.mem_append, or_and_right, exists_or]
  occurs k o := by
    rw [h'.occurs, h.occurs, or_assoc]
    simp only [List.mem_append, or_and_right, exists_or]
  order := by
    rw [h'.order, h.order, eraseDups_append_left, List.filterMap_append, List.append_assoc]

/-- An entry that is ended adds its message, if it holds one. -/
theorem gains_closed {s : State} (h : s.Sound) : Gains s.store [s.entry] s.closed.store := by
  have horder := sorted_keys_closed h
  unfold State.closed at horder ⊢
  cases hk : s.entry.key? with
  | none =>
    rw [hk] at horder
    refine ⟨fun k => ?_, fun k o => ?_, ?_⟩
    · simp [hk]
    · simp [hk]
    · simpa [hk] using horder
  | some key =>
    rw [hk] at horder
    refine ⟨fun k => ?_, fun k o => ?_, ?_⟩
    · show (s.store.insert _).contains k = true ↔ _
      rw [Store.contains_insert]
      simp [hk]
    · show (s.store.insert _).Occurs k o ↔ _
      rw [Store.occurs_insert]
      simp [hk, Sorted.mem_ofList]
    · simpa [hk] using horder

theorem gains_step {s s' : State} {x : Line} (h : s.Sound) (hs : s.step x = .ok s') :
    Gains s.store (if s.entry.endsAt x then [s.entry] else []) s'.store := by
  obtain ⟨e, -, rfl⟩ := step_eq_ok_iff.1 hs
  by_cases hx : s.entry.endsAt x = true
  · simp only [hx, if_true]
    exact gains_closed h
  · simp only [hx]
    exact .refl _

/-- The store behind some lines holds what it held before and what the entries
    say that the lines ended. -/
theorem Delivers.gains {s s' : State} {ls : List (List Char)} (h : Delivers s ls es s')
    (hs : s.Sound) (hls : ∀ l ∈ ls, '\n' ∉ l) : Gains s.store es s'.store := by
  induction h with
  | nil s => exact .refl _
  | cons hx hstep _ ih =>
    have hnext : ∀ o ∈ _, Representable o := Line.representable_of_parse hx (hls _ (by simp))
    exact (gains_step hs hstep).trans (ih (hs.step hstep hnext) fun l hl => hls l (by simp [hl]))

/-- A store that is read holds what the entries of its catalog say. -/
theorem gains_of_parse {text : List Char} {store : Store} (h : parse text = .ok store) :
    Gains .empty (entries text) store := by
  obtain ⟨s, hd, rfl⟩ := parse_eq_ok_iff_delivers.1 h
  refine hd.gains .init fun l hl => ?_
  rcases List.mem_append.1 hl with hl | hl
  · exact Text.not_mem_of_mem_lines hl
  · rw [List.mem_singleton.1 hl]
    exact List.not_mem_nil

end Gains

end MessageHarvest.Catalog
