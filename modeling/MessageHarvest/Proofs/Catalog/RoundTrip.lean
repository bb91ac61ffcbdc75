import MessageHarvest.Proofs.Catalog.Reading
import MessageHarvest.Proofs.Message.Loop

/-! # Written catalogs are read back

    Reading a written catalog retraces the writing: comments change nothing,
    the header entry is closed without a message, and the lines of a message
    lead to an entry that holds its key and its occurrences as they are read.

    * `parse_render`: a catalog with texts and without line feeds in its paths
      is read, as the messages in catalog order, numbered from zero.
    * `readsBack_iff`: the store that is read is the one that was written if
      and only if all its texts and occurrences can be represented. -/

namespace MessageHarvest.Catalog

/-! ## Lines that were written -/

/-- Reading a line that is known to be a certain thing. -/
theorem Reads.line {s s' s'' : State} {raw : List Char} {ls : List (List Char)} {l : Line}
    (hl : Line.parse raw = .ok l) (hs : s.step l = .ok s') (h : Reads s' ls s'') :
    Reads s (raw :: ls) s'' := by
  refine .cons ?_ h
  rw [stepText_of_parse hl, hs]

theorem reads_comments (s : State) {ls : List (List Char)}
    (h : ∀ l ∈ ls, Line.parse l = .ok .comment) : Reads s ls s := by
  induction ls with
  | nil => exact .nil s
  | cons l ls ih => exact .line (h l (by simp)) rfl (ih fun l' hl' => h l' (by simp [hl']))

/-- How an entry grows with the strings of its open field. -/
def Grows (grow : List Char → Entry) : Prop := ∀ a t, (grow a).extend t = .ok (grow (a ++ t))

theorem reads_strings (s : State) {grow : List Char → Entry} (hg : Grows grow) (a : List Char)
    (ts : List (List Char)) :
    Reads { s with entry := grow a } (ts.map quote) { s with entry := grow (a ++ ts.flatten) } := by
  induction ts generalizing a with
  | nil =>
    rw [List.flatten_nil, List.append_nil]
    exact .nil _
  | cons t ts ih =>
    have hstep : ({ s with entry := grow a } : State).step (.string t) =
        .ok { s with entry := grow (a ++ t) } := by
      show ((grow a).extend t >>= _) = _
      rw [hg a t]
      rfl
    rw [List.flatten_cons, ← List.append_assoc]
    exact .line (Line.parse_quote t) hstep (ih (a ++ t))

/-- The text of a field is read as a whole, on however many lines it stands. -/
theorem reads_fieldLines {s : State} {keyword : String} {k : Keyword} {grow : List Char → Entry}
    (hline : ∀ t, Line.parse (fieldLine keyword t) = .ok (.field k t))
    (hfield : ∀ t, s.field k t = .ok { s with entry := grow t }) (hg : Grows grow)
    (text : List Char) : Reads s (fieldLines keyword text) { s with entry := grow text } := by
  have hflat := Text.linesKept_flatten text
  unfold fieldLines
  split
  · -- an empty string and one string for each line
    next l m ls e =>
    rw [e] at hflat
    have hrest := reads_strings s hg [] (l :: m :: ls)
    rw [List.nil_append, hflat] at hrest
    exact .line (hline []) (hfield []) hrest
  · exact .line (hline text) (hfield text) (.nil _)

/-- Reference lines add up. -/
theorem reads_references (s : State) (rs : List Occurrence) {groups : List (List Occurrence)}
    (h : ∀ g ∈ groups, g ≠ []) :
    Reads { s with entry := { references := rs } } (groups.map referenceLine)
      { s with entry :=
        { references := rs ++ (groups.map referenceLine).flatMap lineOccurrences } } := by
  induction groups generalizing rs with
  | nil =>
    rw [List.map_nil, List.flatMap_nil, List.append_nil]
    exact .nil _
  | cons g groups ih =>
    rw [List.map_cons, List.flatMap_cons, ← List.append_assoc]
    have hstep := step_references { s with entry := { references := rs } }
      (lineOccurrences (referenceLine g))
    refine .line (Line.parse_referenceLine (h g (by simp))) hstep ?_
    exact ih _ fun g' hg' => h g' (by simp [hg'])

theorem reads_referenceLines (s : State) (os : List Occurrence) :
    Reads { s with entry := {} } (referenceLines os)
      { s with entry := { references := reread os } } := by
  obtain ⟨groups, hlines, -, hfilled⟩ := referenceLines_filled os
  unfold reread
  rw [hlines]
  exact reads_references s [] hfilled.nonempty

/-! ## Entries that were written -/

/-- The entry that the lines of a message are read as. -/
def Entry.ofMessage (m : Message) : Entry where
  references := reread m.occurrences.toList
  singular := some m.key.singular.toList
  plural := m.key.plural.map String.toList
  hasMsgstr := true
  open? := some .msgstr

theorem key?_ofMessage {m : Message} (h : m.key.singular ≠ "") :
    (Entry.ofMessage m).key? = some m.key := by
  have hne : m.key.singular.toList ≠ [] := by
    intro e
    exact h (by simpa using congrArg String.ofList e)
  obtain ⟨c, t, e⟩ := List.exists_cons_of_ne_nil hne
  have hsingular : String.ofList (c :: t) = m.key.singular := by
    rw [← e, String.ofList_toList]
  have hplural : (m.key.plural.map String.toList).map String.ofList = m.key.plural := by
    cases m.key.plural <;> simp
  unfold Entry.key? Entry.ofMessage
  simp only [e, hsingular, hplural]

theorem reads_msgid (s : State) (rs : List Occurrence) (text : List Char) :
    Reads { s with entry := { references := rs } } (fieldLines "msgid" text)
      { s with entry := { references := rs, singular := some text, open? := some .msgid } } := by
  have hg : Grows fun t => { references := rs, singular := some t, open? := some .msgid } :=
    fun _ _ => rfl
  refine reads_fieldLines (k := .msgid) (fun t => ?_) (fun t => field_msgid _ t) hg text
  exact Line.parse_fieldLine t (by decide) (by decide)

theorem reads_msgidPlural (s : State) (rs : List Occurrence) (singular text : List Char) :
    Reads { s with entry := { references := rs, singular := some singular, open? := some .msgid } }
      (fieldLines "msgid_plural" text)
      { s with entry :=
        { references := rs, singular := some singular, plural := some text,
          open? := some .msgidPlural } } := by
  have hg : Grows fun t =>
      { references := rs, singular := some singular, plural := some t,
        open? := some .msgidPlural } := fun _ _ => rfl
  refine reads_fieldLines (k := .msgidPlural) (fun t => ?_) (fun _ => rfl) hg text
  exact Line.parse_fieldLine t (by decide) (by decide)

/-- The lines of a message lead from an empty entry to the entry of the message. -/
theorem reads_messageLines (s : State) (m : Message) :
    Reads { s with entry := {} } (messageLines m) { s with entry := .ofMessage m } := by
  have hmsgstr : ∀ keyword, keyword = "msgstr" ∨ keyword = "msgstr[0]" ∨ keyword = "msgstr[1]" →
      Line.parse (fieldLine keyword []) = .ok (.field .msgstr []) := by
    rintro keyword (rfl | rfl | rfl) <;>
      exact Line.parse_fieldLine [] (by decide) (by decide)
  have hsingular := (reads_referenceLines s m.occurrences.toList).append
    (reads_msgid s _ m.key.singular.toList)
  unfold messageLines Entry.ofMessage
  refine hsingular.append ?_
  cases m.key.plural with
  | none => exact .line (hmsgstr _ (by simp)) rfl (.nil _)
  | some p =>
    refine (reads_msgidPlural s _ _ p.toList).append ?_
    exact .line (hmsgstr _ (by simp)) rfl (.line (hmsgstr _ (by simp)) rfl (.nil _))

/-! ## Catalogs that were written -/

/-- An entry with a text and a translation, however empty, can be closed. -/
structure Entry.Complete (e : Entry) : Prop where
  singular : e.singular.isSome = true
  hasMsgstr : e.hasMsgstr = true

theorem Entry.complete_ofMessage (m : Message) : (Entry.ofMessage m).Complete := ⟨rfl, rfl⟩

theorem close_of_complete {s : State} (h : s.entry.Complete) : s.close = .ok s.closed := by
  obtain ⟨text, ht⟩ := Option.isSome_iff_exists.1 h.singular
  unfold State.close State.closed Entry.key?
  cases text with
  | nil => simp [ht]
  | cons c text => simp [ht, h.hasMsgstr]

theorem isEmpty_of_complete {e : Entry} (h : e.Complete) : e.isEmpty = false := by
  have hnone : e.singular.isNone = false := by
    rw [← Option.not_isSome, h.singular]
    rfl
  rw [Entry.isEmpty, hnone, Bool.false_and]

/-- The header entry is read without a message. -/
theorem reads_headerLines (h : Header) (charset : String) :
    ∃ s, Reads {} (headerLines h charset) s ∧ s.entry.Complete ∧ s.closed = {} := by
  have hg : Grows fun _ => { singular := some [], hasMsgstr := true, open? := some .msgstr } :=
    fun _ _ => rfl
  have hid : Line.parse (fieldLine "msgid" []) = .ok (.field .msgid []) :=
    Line.parse_fieldLine [] (by decide) (by decide)
  have hstr : Line.parse (fieldLine "msgstr" []) = .ok (.field .msgstr []) :=
    Line.parse_fieldLine [] (by decide) (by decide)
  have hfields : ∀ fields : List String, (fields.map fun f => quote (f.toList ++ ['\n'])) =
      (fields.map fun f => f.toList ++ ['\n']).map quote := fun fields => by simp
  simp only [headerLines, hfields]
  exact ⟨_, .line hid rfl (.line hstr rfl (reads_strings {} hg [] _)), ⟨rfl, rfl⟩, rfl⟩

/-- The state behind some messages. -/
def State.pushAll (s : State) (ms : List Message) : State :=
  ms.foldl (fun s m => s.push m.key (reread m.occurrences.toList)) s

/-- Each message is read behind the blank line that closes the entry before it. -/
theorem reads_messages {ms : List Message} (hms : ∀ m ∈ ms, m.key.singular ≠ "") {s : State}
    (hs : s.entry.Complete) :
    ∃ s', Reads s (ms.flatMap fun m => [] :: messageLines m) s' ∧ s'.entry.Complete ∧
      s'.closed = s.closed.pushAll ms := by
  induction ms generalizing s with
  | nil => exact ⟨s, .nil s, hs, rfl⟩
  | cons m ms ih =>
    -- the blank line closes the entry before, the lines of `m` fill an empty one
    have hblank : s.step .blank = .ok s.closed := by
      rw [State.step, isEmpty_of_complete hs, close_of_complete hs]
      rfl
    have hempty : s.closed = { s.closed with entry := {} } := by
      rw [← s.entry_closed]
    have hclosed : ({ s.closed with entry := .ofMessage m } : State).closed =
        s.closed.push m.key (reread m.occurrences.toList) := by
      simp only [State.closed, key?_ofMessage (hms m (by simp))]
      rfl
    obtain ⟨s', hr, hs', he⟩ := ih (fun n hn => hms n (by simp [hn]))
      (s := { s.closed with entry := .ofMessage m }) (Entry.complete_ofMessage m)
    refine ⟨s', ?_, hs', ?_⟩
    · have hm := reads_messageLines s.closed m
      rw [← hempty] at hm
      rw [List.flatMap_cons, List.cons_append]
      exact .line rfl hblank (hm.append hr)
    · rw [he, hclosed]
      rfl

/-- The messages in their order as they are read, numbered from `n`. -/
def numbered (n : Nat) (ms : List Message) : List Message :=
  (ms.zipIdx n).map fun (m, i) => ⟨m.key, .at i, .ofList (reread m.occurrences.toList)⟩

theorem keys_numbered (n : Nat) (ms : List Message) :
    (numbered n ms).map Message.key = ms.map Message.key := by
  have hfst : (ms.zipIdx n).map Prod.fst = ms := List.zipIdx_map_fst n ms
  unfold numbered
  rw [List.map_map]
  nth_rewrite 2 [← hfst]
  rw [List.map_map]
  rfl

theorem inCatalogOrder_numbered (n : Nat) (ms : List Message) :
    Store.InCatalogOrder (numbered n ms) := by
  have hsnd : (ms.zipIdx n).Pairwise fun p q => p.2 < q.2 := by
    have h := List.pairwise_lt_range' (s := n) (n := ms.length)
    rw [← List.zipIdx_map_snd n ms] at h
    exact List.pairwise_map.1 h
  refine List.pairwise_map.2 (hsnd.imp fun h => ?_)
  exact Message.catalogOrder_eq_lt_iff.2 (.inl (Nat.compare_eq_lt.2 h))

theorem store_pushAll (s : State) (ms : List Message) :
    (s.pushAll ms).store = (numbered s.next ms).foldl (fun s m => s.insert m) s.store := by
  induction ms generalizing s with
  | nil => rfl
  | cons m ms ih =>
    unfold State.pushAll at ih ⊢
    rw [List.foldl_cons, ih]
    rfl

/-- The store that a written store is read as. -/
def restored (s : Store) : Store := .ofList (numbered 0 s.sorted)

theorem sorted_restored (s : Store) : (restored s).sorted = numbered 0 s.sorted := by
  refine Store.sorted_eq_of_perm (Store.ofList_perm ?_).symm (inCatalogOrder_numbered 0 s.sorted)
  rw [keys_numbered]
  exact s.nodup_sorted_keys

/-- A store whose catalog can be read: messages have a text, and no path
    breaks a line. -/
structure Writable (s : Store) : Prop where
  singular : ∀ m ∈ s.toList, m.key.singular ≠ ""
  noLineFeed : ∀ m ∈ s.toList, ∀ o ∈ m.occurrences.toList, '\n' ∉ o.path.toList

/-- The catalog of such a store is read, if not always as the same store. -/
theorem parse_render {s : Store} (hs : Writable s) (h : Header) (charset : String) :
    parse (render s h charset) = .ok (restored s) := by
  obtain ⟨s₁, hheader, hcomplete, hnone⟩ := reads_headerLines h charset
  have hcomments : ∀ l ∈ h.comments.flatMap commentLines, Line.parse l = .ok .comment := by
    intro l hl
    obtain ⟨c, -, hl⟩ := List.mem_flatMap.1 hl
    exact Line.parse_comment hl
  obtain ⟨s₂, hmessages, hcomplete', hclosed⟩ :=
    reads_messages (fun m hm => hs.singular m (Store.mem_sorted.1 hm)) hcomplete
  -- the three parts of the catalog one after the other
  have hlines : Reads {} (catalogLines s h charset) s₂ :=
    ((reads_comments {} hcomments).append hheader).append hmessages
  refine parse_eq_ok_iff.2 ⟨s₂, s₂.closed, ?_, ?_, ?_⟩
  · unfold render
    rw [Text.lines_flatMap fun _ => not_mem_catalogLines h charset hs.noLineFeed]
    exact reads_chomp hlines
  · rw [State.finish, isEmpty_of_complete hcomplete', close_of_complete hcomplete']
    rfl
  · rw [hclosed, hnone, store_pushAll]
    rfl

/-! ## The exact domain -/

/-- A store `t` has the messages of `s`, numbered in the catalog order of `s`. -/
structure ReadsBack (s t : Store) : Prop where
  keys : ∀ k, t.contains k = s.contains k
  occurrences : ∀ k m n, s.find? k = some m → t.find? k = some n → n.occurrences = m.occurrences
  position : ∀ i m, s.sorted[i]? = some m → t.positionOf m.key = .at i

/-- What a message is read as. -/
theorem find?_restored {s : Store} {i : Nat} {m : Message} (h : s.sorted[i]? = some m) :
    (restored s).find? m.key = some ⟨m.key, .at i, .ofList (reread m.occurrences.toList)⟩ := by
  refine Store.find?_eq_some_iff.2 ⟨?_, rfl⟩
  rw [← Store.mem_sorted, sorted_restored]
  exact List.mem_map.2 ⟨(m, i), List.mem_zipIdx_iff_getElem?.2 h, rfl⟩

theorem contains_restored (s : Store) (k : Message.Key) :
    (restored s).contains k = s.contains k := by
  rw [Bool.eq_iff_iff, Store.contains_iff_mem_keys, Store.contains_iff_mem_keys, sorted_restored,
    keys_numbered]

theorem readsBack_restored {s : Store}
    (h : ∀ m ∈ s.toList, ∀ o ∈ m.occurrences.toList, Representable o) :
    ReadsBack s (restored s) where
  keys := contains_restored s
  occurrences k m n hm hn := by
    obtain ⟨hmem, rfl⟩ := Store.find?_eq_some_iff.1 hm
    obtain ⟨i, hi⟩ := List.mem_iff_getElem?.1 (Store.mem_sorted.2 hmem)
    rw [find?_restored hi] at hn
    cases hn
    show Sorted.ofList (reread m.occurrences.toList) = m.occurrences
    rw [reread_of_representable (h m hmem), Sorted.ofList_toList]
  position i m hi := by
    rw [Store.positionOf, find?_restored hi]

/-- A written store is read back if and only if its messages have a text and
    its occurrences can be represented. The texts may be any, and so may the
    header: comments and fields of several lines do no harm. -/
theorem readsBack_iff (s : Store) (h : Header) (charset : String) :
    (∃ t, parse (render s h charset) = .ok t ∧ ReadsBack s t) ↔
      ∀ m ∈ s.toList, m.key.singular ≠ "" ∧ ∀ o ∈ m.occurrences.toList, Representable o := by
  constructor
  · -- nothing but such messages is ever read
    rintro ⟨t, hparse, hback⟩ m hm
    have hread := wellRead_of_parse hparse
    have hcontains : t.contains m.key = true := by
      rw [hback.keys, Store.contains_of_mem hm]
    obtain ⟨n, hn, hkey⟩ := Store.contains_iff.1 hcontains
    have hoccurrences : n.occurrences = m.occurrences :=
      hback.occurrences m.key m n (Store.find?_eq_some_iff.2 ⟨hm, rfl⟩)
        (Store.find?_eq_some_iff.2 ⟨hn, hkey⟩)
    refine ⟨hkey ▸ hread.singular n hn, fun o ho => ?_⟩
    exact hread.representable n hn o (hoccurrences ▸ ho)
  · intro hs
    have hrepresentable : ∀ m ∈ s.toList, ∀ o ∈ m.occurrences.toList, Representable o :=
      fun m hm => (hs m hm).2
    have hwritable : Writable s :=
      ⟨fun m hm => (hs m hm).1, fun m hm o ho => (hrepresentable m hm o ho).path.noLineFeed⟩
    exact ⟨restored s, parse_render hwritable h charset, readsBack_restored hrepresentable⟩

end MessageHarvest.Catalog
