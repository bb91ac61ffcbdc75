import MessageHarvest.Proofs.Catalog.Line
import MessageHarvest.Proofs.Message.Store
import MessageHarvest.Proofs.Outcome

/-! # Reading catalogs line by line

    Whatever a line is, it leaves the store alone or closes the open entry,
    which adds at most one message with the next position (`step_cases`). So
    every store that is read is well formed (`WellRead`): its messages have a
    text, representable occurrences and distinct positions, and its catalog
    order is the order in which the keys first appear in the text
    (`sorted_keys_of_parse`). -/

namespace MessageHarvest.Catalog

/-! ## Runs of the reader -/

/-- Reading lines one after the other without a problem. -/
inductive Reads : State → List (List Char) → State → Prop where
  | nil (s : State) : Reads s [] s
  | cons {s s' s'' : State} {l : List Char} {ls : List (List Char)} :
      s.stepText l = .ok s' → Reads s' ls s'' → Reads s (l :: ls) s''

theorem readLines_eq_ok_iff {s s' : State} {n : Nat} {ls : List (List Char)} :
    readLines s n ls = .ok s' ↔ Reads s ls s' := by
  induction ls generalizing s n with
  | nil =>
    rw [readLines]
    constructor
    · intro h; cases h; exact .nil _
    · intro h; cases h; rfl
  | cons l ls ih =>
    rw [readLines]
    constructor
    · intro h
      split at h
      · next s₁ hs => exact .cons hs (ih.1 h)
      · cases h
    · intro h
      cases h with
      | cons hs h =>
        rw [hs]
        exact ih.2 h

theorem Reads.append {s s' s'' : State} {ls ls' : List (List Char)} (h : Reads s ls s')
    (h' : Reads s' ls' s'') : Reads s (ls ++ ls') s'' := by
  induction h with
  | nil => exact h'
  | cons hs _ ih => exact .cons hs (ih h')

theorem Reads.exists_of_append {s s'' : State} {ls ls' : List (List Char)}
    (h : Reads s (ls ++ ls') s'') : ∃ s', Reads s ls s' ∧ Reads s' ls' s'' := by
  induction ls generalizing s with
  | nil => exact ⟨s, .nil s, h⟩
  | cons l ls ih =>
    cases h with
    | cons hs h =>
      obtain ⟨s', hls, hls'⟩ := ih h
      exact ⟨s', .cons hs hls, hls'⟩

/-- A line does what the thing that it is does. -/
theorem stepText_of_parse {s : State} {raw : List Char} {l : Line} (h : Line.parse raw = .ok l) :
    s.stepText raw = s.step l := by
  unfold State.stepText
  rw [h]
  rfl

/-- Ending lines and taking the ends off again does not change how they are read. -/
theorem reads_chomp {s s' : State} {ls : List (List Char)} (h : Reads s ls s') :
    Reads s (ls.map fun l => Text.chomp (l ++ ['\n'])) s' := by
  induction h with
  | nil => exact .nil _
  | cons hs _ ih =>
    refine .cons ?_ ih
    unfold State.stepText at hs ⊢
    rwa [Line.parse_chomp]

/-- A catalog is read line by line, and what is left open at the end is closed. -/
theorem parse_eq_ok_iff {text : List Char} {store : Store} :
    parse text = .ok store ↔
      ∃ s s', Reads {} (Text.lines text) s ∧ s.finish = .ok s' ∧ s'.store = store := by
  unfold parse
  constructor
  · intro h
    obtain ⟨s, hr, h⟩ := bind_eq_ok_iff.1 h
    split at h
    · next s' hf =>
      cases h
      exact ⟨s, s', readLines_eq_ok_iff.1 hr, hf, rfl⟩
    · cases h
  · rintro ⟨s, s', hr, hf, rfl⟩
    refine bind_eq_ok_iff.2 ⟨s, readLines_eq_ok_iff.2 hr, ?_⟩
    rw [hf]
    rfl

/-! ## What a line can do -/

/-- The key of the message that an entry holds. The header entry holds none. -/
def Entry.key? (e : Entry) : Option Message.Key :=
  match e.singular with
  | none | some [] => none
  | some text => some ⟨String.ofList text, e.plural.map String.ofList⟩

/-- The state behind the open entry. -/
def State.closed (s : State) : State :=
  match s.entry.key? with
  | some k => s.push k s.entry.references
  | none => { s with entry := {} }

theorem State.entry_closed (s : State) : s.closed.entry = {} := by
  unfold State.closed
  split <;> rfl

theorem close_eq_closed {s s' : State} (h : s.close = .ok s') : s' = s.closed := by
  unfold State.close at h
  unfold State.closed Entry.key?
  cases hs : s.entry.singular with
  | none =>
    simp only [hs] at h
    split at h <;> cases h
    rfl
  | some text =>
    cases text with
    | nil => simp only [hs] at h; cases h; rfl
    | cons c text =>
      simp only [hs] at h
      split at h <;> cases h
      rfl

theorem references_of_extend {e e' : Entry} {text : List Char} (h : e.extend text = .ok e') :
    e'.references = e.references := by
  unfold Entry.extend at h
  split at h <;> cases h <;> rfl

/-- The state in which a `msgctxt` or a `msgid` is read: behind an entry that is
    complete, or in one that has no text yet. -/
def State.opened (s : State) : Except Problem State :=
  if s.entry.singular.isNone then .ok s
  else if s.entry.hasMsgstr then s.close
  else .error .msgidWithoutMsgstr

theorem field_msgctxt (s : State) (text : List Char) :
    s.field .msgctxt text =
      s.opened >>= fun s => .ok { s with entry := { s.entry with open? := some .msgctxt } } := by
  unfold State.opened
  simp only [State.field]
  cases s.entry.singular.isNone with
  | true => rfl
  | false => cases s.entry.hasMsgstr <;> rfl

theorem field_msgid (s : State) (text : List Char) :
    s.field .msgid text = s.opened >>= fun s =>
      .ok { s with entry := { s.entry with singular := some text, open? := some .msgid } } := by
  unfold State.opened
  simp only [State.field]
  cases s.entry.singular.isNone with
  | true => rfl
  | false => cases s.entry.hasMsgstr <;> rfl

theorem step_references (s : State) (os : List Occurrence) :
    s.step (.references os) =
      (if s.entry.singular.isSome then s.close else .ok s) >>= fun s =>
        .ok { s with entry := { s.entry with references := s.entry.references ++ os } } := by
  rw [State.step]
  split <;> rfl

theorem opened_cases {s s' : State} (h : s.opened = .ok s') : s' = s ∨ s' = s.closed := by
  unfold State.opened at h
  split at h
  · cases h
    exact .inl rfl
  · split at h
    · exact .inr (close_eq_closed h)
    · cases h

theorem field_cases {s s' : State} {k : Keyword} {text : List Char} (h : s.field k text = .ok s') :
    ∃ s₀ e, (s₀ = s ∨ s₀ = s.closed) ∧ s' = { s₀ with entry := e } ∧
      e.references = s₀.entry.references := by
  cases k with
  | msgctxt =>
    rw [field_msgctxt] at h
    obtain ⟨s₀, h₀, h⟩ := bind_eq_ok_iff.1 h
    cases h
    exact ⟨s₀, _, opened_cases h₀, rfl, rfl⟩
  | msgid =>
    rw [field_msgid] at h
    obtain ⟨s₀, h₀, h⟩ := bind_eq_ok_iff.1 h
    cases h
    exact ⟨s₀, _, opened_cases h₀, rfl, rfl⟩
  | msgidPlural =>
    simp only [State.field] at h
    split at h <;> cases h
    exact ⟨s, _, .inl rfl, rfl, rfl⟩
  | msgstr =>
    simp only [State.field] at h
    split at h <;> cases h
    exact ⟨s, _, .inl rfl, rfl, rfl⟩

/-- A line may close the open entry, and then leaves an entry with the
    occurrences that it had and those of the line. -/
theorem step_cases {s s' : State} {l : Line} (h : s.step l = .ok s') :
    ∃ s₀ e, (s₀ = s ∨ s₀ = s.closed) ∧ s' = { s₀ with entry := e } ∧
      e.references = s₀.entry.references ++ l.occurrences := by
  cases l with
  | blank =>
    rw [State.step] at h
    split at h
    · cases h
      exact ⟨s, s.entry, .inl rfl, rfl, by simp [Line.occurrences]⟩
    · cases close_eq_closed h
      exact ⟨s.closed, s.closed.entry, .inr rfl, rfl, by simp [Line.occurrences]⟩
  | comment =>
    cases h
    exact ⟨s, s.entry, .inl rfl, rfl, by simp [Line.occurrences]⟩
  | references os =>
    rw [step_references] at h
    obtain ⟨s₀, h₀, h⟩ := bind_eq_ok_iff.1 h
    cases h
    refine ⟨s₀, _, ?_, rfl, rfl⟩
    split at h₀
    · exact .inr (close_eq_closed h₀)
    · cases h₀
      exact .inl rfl
  | string text =>
    obtain ⟨e, he, h⟩ := bind_eq_ok_iff.1 h
    cases h
    refine ⟨s, e, .inl rfl, rfl, ?_⟩
    rw [references_of_extend he]
    simp [Line.occurrences]
  | field k text =>
    rw [State.step] at h
    obtain ⟨s₀, e, hs₀, rfl, he⟩ := field_cases h
    exact ⟨s₀, e, hs₀, rfl, by simp [he, Line.occurrences]⟩

/-! ## Stores that are read -/

/-- What every store that is read satisfies. -/
structure WellRead (store : Store) : Prop where
  singular : ∀ m ∈ store.toList, m.key.singular ≠ ""
  representable : ∀ m ∈ store.toList, ∀ o ∈ m.occurrences.toList, Representable o
  positioned : ∀ m ∈ store.toList, ∃ i, m.position = .at i

/-- What every state that is reached satisfies: positions are taken up to the
    next one, and the open entry refers to representable occurrences. -/
structure State.Sound (s : State) : Prop where
  singular : ∀ m ∈ s.store.toList, m.key.singular ≠ ""
  representable : ∀ m ∈ s.store.toList, ∀ o ∈ m.occurrences.toList, Representable o
  positioned : ∀ m ∈ s.store.toList, ∃ i < s.next, m.position = .at i
  references : ∀ o ∈ s.entry.references, Representable o

theorem State.Sound.wellRead {s : State} (h : s.Sound) : WellRead s.store where
  singular := h.singular
  representable := h.representable
  positioned m hm := by
    obtain ⟨i, -, hi⟩ := h.positioned m hm
    exact ⟨i, hi⟩

theorem State.Sound.init : State.Sound {} where
  singular := fun _ h => (List.not_mem_nil h).elim
  representable := fun _ h => (List.not_mem_nil h).elim
  positioned := fun _ h => (List.not_mem_nil h).elim
  references := fun _ h => (List.not_mem_nil h).elim

section FirstAppearance

variable {α : Type} [BEq α] [LawfulBEq α]

theorem nodup_eraseDups (as : List α) : as.eraseDups.Nodup := by
  match as with
  | [] => exact List.nodup_nil
  | a :: as =>
    have hlen : (as.filter fun b => !b == a).length < as.length + 1 :=
      Nat.lt_succ_of_le (List.length_filter_le _ as)
    rw [List.eraseDups_cons]
    refine List.nodup_cons.2 ⟨?_, nodup_eraseDups _⟩
    rw [List.mem_eraseDups]
    simp
termination_by as.length

theorem eraseDups_of_nodup {as : List α} (h : as.Nodup) : as.eraseDups = as := by
  induction as with
  | nil => rfl
  | cons a as ih =>
    obtain ⟨ha, has⟩ := List.nodup_cons.1 h
    have hfilter : (as.filter fun b => !b == a) = as := by
      rw [List.filter_eq_self]
      intro b hb
      have : b ≠ a := fun e => ha (e ▸ hb)
      simpa using this
    rw [List.eraseDups_cons, hfilter, ih has]

/-- Duplicates that are taken out early would have been taken out anyway. -/
theorem eraseDups_append_left (as bs : List α) :
    (as.eraseDups ++ bs).eraseDups = (as ++ bs).eraseDups := by
  have hremove : bs.removeAll as.eraseDups = bs.removeAll as := by
    unfold List.removeAll
    refine List.filter_congr fun b _ => ?_
    congr 1
    rw [Bool.eq_iff_iff]
    simp
  rw [List.eraseDups_append, List.eraseDups_append, eraseDups_of_nodup (nodup_eraseDups as),
    hremove]

/-- What is there already does not appear again. -/
theorem eraseDups_concat_of_mem {as : List α} {a : α} (h : as.Nodup) (ha : a ∈ as) :
    (as ++ [a]).eraseDups = as := by
  rw [List.eraseDups_append, eraseDups_of_nodup h]
  simp [List.removeAll, ha]

end FirstAppearance

section Push

variable {s : State} {k : Message.Key} {os : List Occurrence}

/-- A message of a new key comes last. -/
theorem sorted_push_new (h : s.Sound) (hk : s.store.contains k = false) :
    (s.push k os).store.sorted = s.store.sorted ++ [⟨k, .at s.next, .ofList os⟩] := by
  have hnew : s.store.find? k = none := Store.contains_eq_false_iff.1 hk
  apply Store.sorted_eq_of_perm
  · have hins := Store.insert_perm (m := ⟨k, .at s.next, .ofList os⟩) hnew
    have hcons := List.perm_append_singleton (⟨k, .at s.next, .ofList os⟩ : Message) s.store.sorted
    exact (hcons.trans (s.store.sorted_perm.cons _)).trans hins.symm
  · -- every position that is taken comes before the next one
    refine List.pairwise_append.2 ⟨s.store.pairwise_sorted, List.pairwise_singleton _ _, ?_⟩
    intro a ha b hb
    rw [List.mem_singleton.1 hb, Message.catalogOrder_eq_lt_iff]
    obtain ⟨i, hlt, hi⟩ := h.positioned a (Store.mem_sorted.1 ha)
    rw [hi]
    exact .inl (Nat.compare_eq_lt.2 hlt)

/-- A message of a key that is there adds its occurrences and changes no order. -/
theorem sorted_push_old (h : s.Sound) (hk : s.store.contains k = true) :
    (s.push k os).store.sorted = s.store.sorted.map fun n =>
      if n.key = k then Message.absorb ⟨k, .at s.next, .ofList os⟩ n else n := by
  apply Store.sorted_eq_of_perm
  · have hins := Store.toList_insert (m := ⟨k, .at s.next, .ofList os⟩) hk
    unfold State.push
    rw [hins]
    exact s.store.sorted_perm.map _
  · -- a message that has a position keeps it when it absorbs another one
    refine s.store.pairwise_sorted.map fun m hm => ?_
    obtain ⟨i, -, hi⟩ := h.positioned m (Store.mem_sorted.1 hm)
    split
    · exact ⟨rfl, by simp [Message.absorb, hi]⟩
    · exact ⟨rfl, rfl⟩

/-- The keys in catalog order, with a new one at the end. -/
theorem sorted_keys_push (h : s.Sound) :
    (s.push k os).store.sorted.map Message.key =
      (s.store.sorted.map Message.key ++ [k]).eraseDups := by
  have hnodup := s.store.nodup_sorted_keys
  cases hk : s.store.contains k with
  | true =>
    have hmem : k ∈ s.store.sorted.map Message.key := Store.contains_iff_mem_keys.1 hk
    rw [eraseDups_concat_of_mem hnodup hmem, sorted_push_old h hk, List.map_map]
    refine List.map_congr_left fun n _ => ?_
    simp only [Function.comp_apply]
    split <;> rfl
  | false =>
    have hmem : k ∉ s.store.sorted.map Message.key := by
      rw [← Store.contains_iff_mem_keys, hk]
      exact Bool.false_ne_true
    have hconcat : (s.store.sorted.map Message.key ++ [k]).Nodup := by
      rw [← List.concat_eq_append, List.nodup_concat]
      exact ⟨hmem, hnodup⟩
    rw [sorted_push_new h hk, eraseDups_of_nodup hconcat, List.map_append]
    rfl

theorem State.Sound.push (h : s.Sound) (hk : k.singular ≠ "") (hos : ∀ o ∈ os, Representable o) :
    (s.push k os).Sound := by
  -- each message of the new store, in its three ways to be there
  have hcases : ∀ m ∈ (s.push k os).store.toList,
      m ∈ s.store.toList ∨ m = ⟨k, .at s.next, .ofList os⟩ ∨
        ∃ n ∈ s.store.toList, m = Message.absorb ⟨k, .at s.next, .ofList os⟩ n := by
    intro m hm
    rw [← Store.mem_sorted] at hm
    cases hc : s.store.contains k with
    | true =>
      rw [sorted_push_old h hc] at hm
      obtain ⟨n, hn, rfl⟩ := List.mem_map.1 hm
      split
      · exact .inr (.inr ⟨n, Store.mem_sorted.1 hn, rfl⟩)
      · exact .inl (Store.mem_sorted.1 hn)
    | false =>
      rw [sorted_push_new h hc] at hm
      rcases List.mem_append.1 hm with hm | hm
      · exact .inl (Store.mem_sorted.1 hm)
      · exact .inr (.inl (List.mem_singleton.1 hm))
  refine ⟨?_, ?_, ?_, fun _ h => (List.not_mem_nil h).elim⟩
  · intro m hm
    rcases hcases m hm with hm | rfl | ⟨n, hn, rfl⟩
    · exact h.singular m hm
    · exact hk
    · exact h.singular n hn
  · intro m hm o ho
    rcases hcases m hm with hm | rfl | ⟨n, hn, rfl⟩
    · exact h.representable m hm o ho
    · exact hos o (Sorted.mem_ofList.1 ho)
    · rcases Sorted.mem_union.1 ho with ho | ho
      · exact h.representable n hn o ho
      · exact hos o (Sorted.mem_ofList.1 ho)
  · intro m hm
    show ∃ i < s.next + 1, _
    rcases hcases m hm with hm | rfl | ⟨n, hn, rfl⟩
    · obtain ⟨i, hlt, hi⟩ := h.positioned m hm
      exact ⟨i, by omega, hi⟩
    · exact ⟨s.next, by omega, rfl⟩
    · obtain ⟨i, hlt, hi⟩ := h.positioned n hn
      exact ⟨i, by omega, by simp [Message.absorb, hi]⟩

end Push

/-- Closing the open entry adds its message, if it holds one. -/
theorem sorted_keys_closed {s : State} (h : s.Sound) :
    s.closed.store.sorted.map Message.key =
      (s.store.sorted.map Message.key ++ s.entry.key?.toList).eraseDups := by
  unfold State.closed
  cases hk : s.entry.key? with
  | some k => exact sorted_keys_push h
  | none =>
    show _ = (_ ++ []).eraseDups
    rw [List.append_nil, eraseDups_of_nodup s.store.nodup_sorted_keys]

theorem singular_of_key? {e : Entry} {k : Message.Key} (h : e.key? = some k) : k.singular ≠ "" := by
  unfold Entry.key? at h
  split at h
  · cases h
  · cases h
  · next text hne _ =>
    cases h
    intro hempty
    exact hne (by simpa using congrArg String.toList hempty)

theorem State.Sound.closed {s : State} (h : s.Sound) : s.closed.Sound := by
  unfold State.closed
  cases hk : s.entry.key? with
  | some k => exact h.push (singular_of_key? hk) h.references
  | none => exact ⟨h.singular, h.representable, h.positioned, fun _ h => (List.not_mem_nil h).elim⟩

theorem State.Sound.step {s s' : State} {l : Line} (h : s.Sound) (hs : s.step l = .ok s')
    (hl : ∀ o ∈ l.occurrences, Representable o) : s'.Sound := by
  obtain ⟨s₀, e, hs₀, rfl, he⟩ := step_cases hs
  -- closing comes first, so that only the new occurrences are left to check
  have h₀ : s₀.Sound := by
    rcases hs₀ with rfl | rfl
    · exact h
    · exact h.closed
  refine ⟨h₀.singular, h₀.representable, h₀.positioned, fun o ho => ?_⟩
  rw [he] at ho
  rcases List.mem_append.1 ho with ho | ho
  · exact h₀.references o ho
  · exact hl o ho

theorem State.Sound.stepText {s s' : State} {l : List Char} (h : s.Sound)
    (hs : s.stepText l = .ok s') (hl : '\n' ∉ l) : s'.Sound := by
  obtain ⟨x, hx, hs⟩ := bind_eq_ok_iff.1 hs
  exact h.step hs (Line.representable_of_parse hx hl)

theorem Reads.sound {s s' : State} {ls : List (List Char)} (h : Reads s ls s') (hs : s.Sound)
    (hls : ∀ l ∈ ls, '\n' ∉ l) : s'.Sound := by
  induction h with
  | nil => exact hs
  | cons hstep _ ih =>
    exact ih (hs.stepText hstep (hls _ (by simp))) fun l hl => hls l (by simp [hl])

/-- What is left open at the end is closed like any other entry, and an empty
    entry holds nothing. -/
theorem finish_eq_closed {s s' : State} (h : s.finish = .ok s') : s'.store = s.closed.store := by
  unfold State.finish at h
  split at h
  · next he =>
    cases h
    have hsingular : s.entry.singular = none := by
      unfold Entry.isEmpty at he
      rw [Bool.and_eq_true, Option.isNone_iff_eq_none] at he
      exact he.1
    simp [State.closed, Entry.key?, hsingular]
  · rw [close_eq_closed h]

/-- A store that is read is well formed. -/
theorem wellRead_of_parse {text : List Char} {store : Store} (h : parse text = .ok store) :
    WellRead store := by
  obtain ⟨s, s', hr, hf, rfl⟩ := parse_eq_ok_iff.1 h
  rw [finish_eq_closed hf]
  exact (hr.sound .init fun _ => Text.not_mem_of_mem_lines).closed.wellRead

/-! ## The order of first appearance -/

/-- The keys of the messages that are read from some lines, in the order in
    which their entries end. -/
def keysFrom (s : State) : List (List Char) → List Message.Key
  | [] => s.entry.key?.toList
  | l :: ls =>
    match s.stepText l with
    | .ok s' => (if s'.next = s.next then [] else s.entry.key?.toList) ++ keysFrom s' ls
    | .error _ => []

/-- The keys of a catalog in the order of their first appearance. -/
def keySequence (text : List Char) : List Message.Key :=
  (keysFrom {} (Text.lines text)).eraseDups

theorem sorted_keys_stepText {s s' : State} {l : List Char} (h : s.Sound)
    (hs : s.stepText l = .ok s') :
    s'.store.sorted.map Message.key = (s.store.sorted.map Message.key ++
      if s'.next = s.next then [] else s.entry.key?.toList).eraseDups := by
  obtain ⟨x, -, hs⟩ := bind_eq_ok_iff.1 hs
  obtain ⟨s₀, e, hs₀ | hs₀, rfl, -⟩ := step_cases hs
  · subst hs₀
    rw [if_pos rfl, List.append_nil, eraseDups_of_nodup s₀.store.nodup_sorted_keys]
  · subst hs₀
    show s.closed.store.sorted.map Message.key = _
    rw [sorted_keys_closed h]
    -- the next position moves if and only if there is a message
    cases hk : s.entry.key? with
    | none => simp
    | some k =>
      have hnext : s.closed.next ≠ s.next := by
        simp [State.closed, hk, State.push]
      rw [if_neg hnext]

/-- Catalog order is the order in which the keys are read. -/
theorem Reads.sorted_keys {s s' s'' : State} {ls : List (List Char)} (h : Reads s ls s')
    (hf : s'.finish = .ok s'') (hs : s.Sound) (hls : ∀ l ∈ ls, '\n' ∉ l) :
    s''.store.sorted.map Message.key =
      (s.store.sorted.map Message.key ++ keysFrom s ls).eraseDups := by
  induction h with
  | nil s => rw [finish_eq_closed hf, sorted_keys_closed hs, keysFrom]
  | @cons s₁ s₂ s₃ l ls hstep _ ih =>
    have hs₂ := hs.stepText hstep (hls l (by simp))
    -- duplicates may be taken out line by line or at the end
    have hkeys : keysFrom s₁ (l :: ls) =
        (if s₂.next = s₁.next then [] else s₁.entry.key?.toList) ++ keysFrom s₂ ls := by
      rw [keysFrom, hstep]
    rw [ih hf hs₂ fun l' hl' => hls l' (by simp [hl']), sorted_keys_stepText hs hstep,
      eraseDups_append_left, List.append_assoc, hkeys]

/-- The catalog order of a store that is read is the order of first appearance. -/
theorem sorted_keys_of_parse {text : List Char} {store : Store} (h : parse text = .ok store) :
    store.sorted.map Message.key = keySequence text := by
  obtain ⟨s, s', hr, hf, rfl⟩ := parse_eq_ok_iff.1 h
  have hkeys := hr.sorted_keys hf .init fun _ => Text.not_mem_of_mem_lines
  have hnone : (({} : State).store.sorted.map Message.key) = [] := by
    simp [Store.sorted]
  rw [hkeys, hnone]
  rfl

end MessageHarvest.Catalog
