import MessageHarvest.Proofs.Catalog.Runs

/-! # Catalogs in normal form

    A catalog may be written in many ways: with translations, comments of
    other tools, entries that stand there twice, line numbers with a sign or
    with zeros in front. What is read from it is always a store that can be
    written, so that reading and writing once is as good as doing it twice.

    * `Reads.spread`: the reader gives out each position once.
    * `messageLines_numbered`: messages with representable occurrences are
      written as before after they were read.
    * `normalises_of_parse`: every catalog that can be read is normalised by
      writing it. -/

namespace MessageHarvest.Catalog

/-! ## Positions -/

/-- No two messages stand at one position. -/
def Spread (s : Store) : Prop := (s.sorted.map Message.position).Nodup

theorem Spread.eq_of_position_eq {s : Store} (h : Spread s) {m n : Message} (hm : m ∈ s.toList)
    (hn : n ∈ s.toList) (hp : m.position = n.position) : m = n :=
  List.inj_on_of_nodup_map h (Store.mem_sorted.2 hm) (Store.mem_sorted.2 hn) hp

/-- A new message takes a position that no other one has, and one that is
    there already keeps its own. -/
theorem Spread.push {s : State} (h : Spread s.store) (hs : s.Sound) (k : Message.Key)
    (os : List Occurrence) : Spread (s.push k os).store := by
  unfold Spread at h ⊢
  cases hk : s.store.contains k with
  | true =>
    have hkept : ∀ m ∈ s.store.sorted,
        (if m.key = k then Message.absorb ⟨k, .at s.next, .ofList os⟩ m else m).position =
          m.position := by
      intro m hm
      obtain ⟨i, -, hi⟩ := hs.positioned m (Store.mem_sorted.1 hm)
      split
      · simp [Message.absorb, hi]
      · rfl
    have hpositions := List.map_congr_left hkept
    rw [sorted_push_old hs hk, List.map_map]
    exact hpositions ▸ h
  | false =>
    have hnew : .at s.next ∉ s.store.sorted.map Message.position := by
      intro hmem
      obtain ⟨m, hm, hnext⟩ := List.mem_map.1 hmem
      obtain ⟨i, hlt, hi⟩ := hs.positioned m (Store.mem_sorted.1 hm)
      rw [hi] at hnext
      cases hnext
      omega
    rw [sorted_push_new hs hk, List.map_append, List.map_singleton, ← List.concat_eq_append]
    exact (List.nodup_concat _ _).2 ⟨hnew, h⟩

theorem Spread.closed {s : State} (h : Spread s.store) (hs : s.Sound) : Spread s.closed.store := by
  unfold State.closed
  cases s.entry.key? with
  | some k => exact h.push hs k s.entry.references
  | none => exact h

theorem Spread.stepText {s s' : State} {l : List Char} (h : Spread s.store) (hs : s.Sound)
    (hstep : s.stepText l = .ok s') : Spread s'.store := by
  obtain ⟨x, -, hstep⟩ := bind_eq_ok_iff.1 hstep
  obtain ⟨s₀, e, hs₀, rfl, -⟩ := step_cases hstep
  -- the store changes only if the open entry is closed
  rcases hs₀ with rfl | rfl
  · exact h
  · exact h.closed hs

theorem Reads.spread {s s' : State} {ls : List (List Char)} (h : Reads s ls s')
    (hp : Spread s.store) (hs : s.Sound) (hls : ∀ l ∈ ls, '\n' ∉ l) : Spread s'.store := by
  induction h with
  | nil => exact hp
  | cons hstep _ ih =>
    exact ih (hp.stepText hs hstep) (hs.stepText hstep (hls _ (by simp)))
      fun l hl => hls l (by simp [hl])

/-- The messages of a store that is read stand at different positions. -/
theorem spread_of_parse {text : List Char} {store : Store} (h : parse text = .ok store) :
    Spread store := by
  obtain ⟨s, s', hr, hf, rfl⟩ := parse_eq_ok_iff.1 h
  have hlines : ∀ l ∈ Text.lines text, '\n' ∉ l := fun _ => Text.not_mem_of_mem_lines
  have hempty : Spread ({} : State).store := by simp [Spread, Store.sorted]
  rw [finish_eq_closed hf]
  exact (hr.spread hempty .init hlines).closed (hr.sound .init hlines)

/-! ## Writing what was read -/

/-- Messages that were read are written with the lines that they were read
    from, since positions are not written. -/
theorem messageLines_numbered {ms : List Message}
    (h : ∀ m ∈ ms, ∀ o ∈ m.occurrences.toList, Representable o) (n : Nat) :
    (numbered n ms).map messageLines = ms.map messageLines := by
  have hline : ∀ p ∈ ms.zipIdx n,
      messageLines ⟨p.1.key, .at p.2, .ofList (reread p.1.occurrences.toList)⟩ =
        messageLines p.1 := by
    intro p hp
    refine messageLines_congr rfl ?_
    show Sorted.ofList (reread p.1.occurrences.toList) = p.1.occurrences
    rw [reread_of_representable (h p.1 (List.fst_mem_of_mem_zipIdx hp)), Sorted.ofList_toList]
  calc (numbered n ms).map messageLines
      = (ms.zipIdx n).map (messageLines ∘ Prod.fst) := by
        rw [numbered, List.map_map]
        exact List.map_congr_left hline
    _ = ms.map messageLines := by rw [← List.map_map, List.zipIdx_map_fst]

/-- What is read from the catalog of a store is written as the same catalog. -/
theorem render_restored {s : Store}
    (h : ∀ m ∈ s.toList, ∀ o ∈ m.occurrences.toList, Representable o) (header : Header)
    (charset : String) : render (restored s) header charset = render s header charset := by
  refine render_congr ?_ header charset
  rw [sorted_restored]
  exact messageLines_numbered (fun m hm => h m (Store.mem_sorted.1 hm)) 0

/-! ## Normal form -/

/-- A text is read as a store that can be written and read again without loss. -/
structure Normalises (text : List Char) (s : Store) : Prop where
  singular : ∀ m ∈ s.toList, m.key.singular ≠ ""
  positioned : ∀ m ∈ s.toList, ∃ i, m.position = .at i
  distinct : ∀ m ∈ s.toList, ∀ n ∈ s.toList, m.position = n.position → m = n
  order : s.sorted.map Message.key = keySequence text
  paths : ∀ m ∈ s.toList, ∀ o ∈ m.occurrences.toList, RepresentablePath o.path.toList
  /-- Writing and reading gives the messages back in their order, and another
      round writes the same text. -/
  again : ∀ header charset, ∃ t, parse (render s header charset) = .ok t ∧ ReadsBack s t ∧
    t.sorted.map Message.key = s.sorted.map Message.key ∧
    render t header charset = render s header charset

/-- Whatever is read can be written, and reading and writing it again changes
    nothing. -/
theorem normalises_of_parse {text : List Char} {s : Store} (h : parse text = .ok s) :
    Normalises text s := by
  have hread := wellRead_of_parse h
  have hspread := spread_of_parse h
  have hwritable : Writable s :=
    ⟨hread.singular, fun m hm o ho => (hread.representable m hm o ho).path.noLineFeed⟩
  refine ⟨hread.singular, hread.positioned, fun m hm n hn => hspread.eq_of_position_eq hm hn,
    sorted_keys_of_parse h, fun m hm o ho => (hread.representable m hm o ho).path,
    fun header charset => ⟨restored s, ?_, ?_, ?_, ?_⟩⟩
  · exact parse_render hwritable header charset
  · exact readsBack_restored hread.representable
  · rw [sorted_restored, keys_numbered]
  · exact render_restored hread.representable header charset

/-- A catalog with a context, an escape of its own, a message that stands there
    twice, and line numbers with a sign, with zeros, too great and missing. -/
def untidy : List Char :=
  ("#: a b:+7\nmsgctxt \"menu\"\nmsgid \"\\q\"\n\"x\"\nmsgstr \"t\"\n" ++
    "#: c:007 d:99999999999999999999 e\n" ++
    "msgid \"y\"\nmsgstr[0] \"\"\nmsgid \"\\\\qx\"\nmsgstr \"\"").toList

/-- What it is read as: the second entry of the first message adds nothing, but
    takes a position. -/
def tidy : Store :=
  .ofList
    [⟨⟨"\\qx", none⟩, .at 0, .ofList [⟨"a b", 7⟩]⟩, ⟨⟨"y", none⟩, .at 1, .ofList [⟨"c", 7⟩]⟩]

theorem normalises_untidy : parse untidy = .ok tidy ∧ Normalises untidy tidy := by
  have h : parse untidy = .ok tidy := by
    -- the characters of a text are not evaluated from its bytes
    unfold untidy
    iterate 2 rewrite [String.toList_append]
    iterate 3 rewrite [String.toList_ofList]
    decide +kernel
  exact ⟨h, normalises_of_parse h⟩

end MessageHarvest.Catalog
