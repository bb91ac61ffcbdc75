import MessageHarvest.Proofs.Catalog.RoundTrip
import MessageHarvest.Proofs.Message.Reconcile

/-! # Runs on a catalog

    A run reads the catalog, if there is one, reconciles what it found with it
    and writes the catalog anew. Positions only live within a run: the reader
    numbers the messages, reconciling hands the numbers on, sorting uses them
    up and the writer forgets them. Still the order of a catalog is stable.

    * `runs_keep_order`: over any number of runs, keys that stay keep their
      order and new keys come last.
    * `apply_again`: a run that is repeated writes the same text again. -/

namespace MessageHarvest.Catalog

/-! ## Runs -/

/-- What a scan of the sources can find. -/
structure Scanned (s : Store) : Prop extends Writable s where
  unordered : s.Unordered

/-- A run, by what it finds and how it is set up. -/
structure Run where
  fresh : Store
  removeUnused : Bool
  header : Header
  charset : String
  scanned : Scanned fresh

/-- What a run leaves behind. -/
structure Outcome where
  store : Store
  summary : Reconciliation
  text : List Char

/-- Reconciles and writes. -/
def Run.outcome (r : Run) (previous : Option Store) : Outcome :=
  let (store, summary) := r.fresh.reconcile previous r.removeUnused
  ⟨store, summary, render store r.header r.charset⟩

/-- A run on the text of a catalog, if there is one. -/
def Run.apply (r : Run) (catalog : Option (List Char)) : Except Fault Outcome :=
  match catalog with
  | none => .ok (r.outcome none)
  | some text => do return r.outcome (some (← parse text))

/-- The catalogs that runs leave behind one after the other. -/
def catalogs (catalog : Option (List Char)) : List Run → Except Fault (List (List Char))
  | [] => .ok []
  | r :: rs => do
    let out ← r.apply catalog
    return out.text :: (← catalogs (some out.text) rs)

/-- A catalog can be read, if there is one. -/
def Readable (catalog : Option (List Char)) : Prop := ∀ text ∈ catalog, ∃ s, parse text = .ok s

/-- The keys of a catalog in the order of their first appearance. -/
def keysOf (catalog : Option (List Char)) : List Message.Key := catalog.elim [] keySequence

/-! ## One run -/

theorem WellRead.positioned_all {s : Store} (h : WellRead s) : s.Positioned := by
  intro m hm
  obtain ⟨i, hi⟩ := h.positioned m hm
  rw [hi]
  exact Message.Position.noConfusion

/-- What a run leaves behind, in terms of what it found. -/
structure Settled (r : Run) (out : Outcome) : Prop where
  writable : Writable out.store
  text : out.text = render out.store r.header r.charset
  found : ∀ m ∈ r.fresh.toList, out.store.contains m.key = true
  stays : ∀ m ∈ out.store.toList, r.fresh.stays r.removeUnused m.key = true
  /-- What was found has the occurrences that were found, what is kept those that were read. -/
  occurrences : ∀ m ∈ out.store.toList,
    (∃ n, r.fresh.find? m.key = some n ∧ n.occurrences = m.occurrences) ∨
      (r.fresh.contains m.key = false ∧ ∀ o ∈ m.occurrences.toList, Representable o)
  retained : out.summary.retained =
    ((out.store.sorted.map Message.key).filter fun k => !r.fresh.contains k).map
      Message.Key.singular

theorem settled_none (r : Run) : Settled r (r.outcome none) where
  writable := r.scanned.toWritable
  text := rfl
  found _ := Store.contains_of_mem
  stays m hm := by
    rw [Store.stays, Store.contains_of_mem (s := r.fresh) hm]
    rfl
  occurrences m hm := .inl ⟨m, Store.find?_eq_some_iff.2 ⟨hm, rfl⟩, rfl⟩
  retained := by
    have hnone : ((r.fresh.sorted.map Message.key).filter fun k => !r.fresh.contains k) = [] := by
      refine List.filter_eq_nil_iff.2 fun k hk => ?_
      rw [Store.contains_iff_mem_keys.2 hk]
      exact Bool.false_ne_true
    show [] = _
    rw [show (r.outcome none).store = r.fresh from rfl, hnone]
    rfl

section Reconciled

variable (r : Run) {previous : Store}

theorem sorted_outcome (h : WellRead previous) :
    (r.outcome (some previous)).store.sorted =
      r.fresh.lineup previous r.removeUnused :=
  Store.sorted_reconcile r.scanned.unordered h.positioned_all

/-- A message that a run leaves behind was found or is kept. -/
theorem mem_outcome (h : WellRead previous) {m : Message}
    (hm : m ∈ (r.outcome (some previous)).store.toList) :
    (∃ n ∈ r.fresh.toList, n.key = m.key ∧ n.occurrences = m.occurrences) ∨
      (m ∈ previous.toList ∧ r.fresh.contains m.key = false ∧ r.removeUnused = false) := by
  rw [← Store.mem_sorted, sorted_outcome r h, Store.mem_lineup_iff r.scanned.unordered] at hm
  rcases List.mem_append.1 hm with hm | hm
  · obtain ⟨n, hn, rfl⟩ := List.mem_map.1 hm
    exact .inl ⟨n, hn, rfl, rfl⟩
  · cases hr : r.removeUnused with
    | true => rw [hr] at hm; cases hm
    | false =>
      rw [hr] at hm
      obtain ⟨hp, hc⟩ := Store.mem_unused.1 hm
      exact .inr ⟨hp, hc, rfl⟩

theorem settled_some (h : WellRead previous) : Settled r (r.outcome (some previous)) where
  writable := by
    constructor
    · intro m hm
      rcases mem_outcome r h hm with ⟨n, hn, hk, -⟩ | ⟨hp, -, -⟩
      · exact hk ▸ r.scanned.singular n hn
      · exact h.singular m hp
    · intro m hm o ho
      rcases mem_outcome r h hm with ⟨n, hn, -, he⟩ | ⟨hp, -, -⟩
      · exact r.scanned.noLineFeed n hn o (he ▸ ho)
      · exact (h.representable m hp o ho).path.noLineFeed
  text := rfl
  found m hm := by
    rw [Store.contains_iff_mem_keys, sorted_outcome r h, Store.keys_lineup, List.mem_append]
    cases hc : previous.contains m.key with
    | true =>
      refine .inl (List.mem_filter.2 ⟨Store.contains_iff_mem_keys.1 hc, ?_⟩)
      rw [Store.stays, Store.contains_of_mem hm]
      rfl
    | false => exact .inr (List.mem_filter.2 ⟨List.mem_map_of_mem hm, by simp [hc]⟩)
  stays m hm := by
    rw [Store.stays]
    rcases mem_outcome r h hm with ⟨n, hn, hk, -⟩ | ⟨-, -, hr⟩
    · rw [← hk, Store.contains_of_mem hn]
      rfl
    · simp [hr]
  occurrences m hm := by
    rcases mem_outcome r h hm with ⟨n, hn, hk, he⟩ | ⟨hp, hc, -⟩
    · exact .inl ⟨n, Store.find?_eq_some_iff.2 ⟨hn, hk⟩, he⟩
    · exact .inr ⟨hc, h.representable m hp⟩
  retained := by
    -- a new key was found, so it is not among those that are kept
    have hnew : (((r.fresh.toList.map Message.key).filter fun k => !previous.contains k).filter
        fun k => !r.fresh.contains k) = [] := by
      refine List.filter_eq_nil_iff.2 fun k hk => ?_
      obtain ⟨m, hm, rfl⟩ := List.mem_map.1 (List.mem_filter.1 hk).1
      rw [Store.contains_of_mem hm]
      exact Bool.false_ne_true
    rw [sorted_outcome r h, Store.keys_lineup, List.filter_append, hnew, List.append_nil,
      List.filter_filter]
    refine Store.retained_reconcile.trans (congrArg _ (List.filter_congr fun k _ => ?_))
    rw [Store.stays]
    cases r.fresh.contains k <;> rfl

end Reconciled

section Applied

variable {r : Run} {catalog : Option (List Char)} {out : Outcome}

theorem apply_of_readable (r : Run) (h : Readable catalog) : ∃ out, r.apply catalog = .ok out := by
  cases catalog with
  | none => exact ⟨_, rfl⟩
  | some text =>
    obtain ⟨s, hs⟩ := h text rfl
    exact ⟨r.outcome (some s), bind_eq_ok_iff.2 ⟨s, hs, rfl⟩⟩

/-- A run starts from nothing or from what it reads. -/
theorem apply_cases (h : r.apply catalog = .ok out) :
    (catalog = none ∧ out = r.outcome none) ∨
      ∃ text previous, catalog = some text ∧ parse text = .ok previous ∧
        out = r.outcome (some previous) := by
  cases catalog with
  | none => cases h; exact .inl ⟨rfl, rfl⟩
  | some text =>
    obtain ⟨previous, hp, h⟩ := bind_eq_ok_iff.1 h
    cases h
    exact .inr ⟨text, previous, rfl, hp, rfl⟩

theorem settled_of_apply (h : r.apply catalog = .ok out) : Settled r out := by
  obtain ⟨-, rfl⟩ | ⟨text, previous, -, hp, rfl⟩ := apply_cases h
  · exact settled_none r
  · exact settled_some r (wellRead_of_parse hp)

/-- What a run writes can be read. -/
theorem Settled.parse_text (h : Settled r out) : parse out.text = .ok (restored out.store) := by
  rw [h.text]
  exact parse_render h.writable r.header r.charset

/-- The keys of a written catalog appear in catalog order. -/
theorem Settled.keySequence_text (h : Settled r out) :
    keySequence out.text = out.store.sorted.map Message.key := by
  rw [← sorted_keys_of_parse h.parse_text, sorted_restored, keys_numbered]

/-! ## The order of keys -/

/-- How the keys of a catalog follow from those of the one before: without
    those that are unused and dropped, and with the new ones behind them. -/
def Succeeds (r : Run) (old new : List Message.Key) : Prop :=
  ∃ added, new = old.filter (r.fresh.stays r.removeUnused) ++ added ∧
    (added.Pairwise fun k k' => compare k k' = .lt) ∧
    ∀ k, k ∈ added ↔ r.fresh.contains k = true ∧ k ∉ old

theorem succeeds_of_apply (h : r.apply catalog = .ok out) :
    Succeeds r (keysOf catalog) (keySequence out.text) := by
  have hincreasing : (r.fresh.toList.map Message.key).Pairwise fun k k' => compare k k' = .lt :=
    List.pairwise_map.2 r.fresh.messages.increasing
  have hmem : ∀ k, k ∈ r.fresh.toList.map Message.key ↔ r.fresh.contains k = true := by
    intro k
    rw [Store.contains_iff, List.mem_map]
  rw [(settled_of_apply h).keySequence_text]
  obtain ⟨rfl, rfl⟩ | ⟨text, previous, rfl, hp, rfl⟩ := apply_cases h
  · -- without a catalog every key is new
    refine ⟨r.fresh.toList.map Message.key, ?_, hincreasing, fun k => ?_⟩
    · show r.fresh.sorted.map Message.key = _
      rw [Store.sorted_of_unordered r.scanned.unordered]
      rfl
    · simp [hmem, keysOf]
  · have hkeys : previous.sorted.map Message.key = keysOf (some text) := sorted_keys_of_parse hp
    refine ⟨(r.fresh.toList.map Message.key).filter fun k => !previous.contains k, ?_,
      hincreasing.filter _, fun k => ?_⟩
    · rw [sorted_outcome r (wellRead_of_parse hp), Store.keys_lineup, hkeys]
    · rw [List.mem_filter, hmem, ← hkeys, ← Store.contains_iff_mem_keys]
      simp

end Applied

section Order

variable {r : Run} {old new : List Message.Key} {k k' : Message.Key}

theorem Succeeds.mem_filter (h : Succeeds r old new) (hold : k ∈ old) (hnew : k ∈ new) :
    k ∈ old.filter (r.fresh.stays r.removeUnused) := by
  obtain ⟨added, rfl, -, hadded⟩ := h
  rcases List.mem_append.1 hnew with hk | hk
  · exact hk
  · exact absurd hold ((hadded k).1 hk).2

/-- Keys that stay keep their order. -/
theorem Succeeds.sublist (h : Succeeds r old new) (hold : [k, k'].Sublist old) (hk : k ∈ new)
    (hk' : k' ∈ new) : [k, k'].Sublist new := by
  -- both keys pass the filter, and filtering keeps the order
  have hstays := (List.mem_filter.1 (h.mem_filter (hold.subset (by simp)) hk)).2
  have hstays' := (List.mem_filter.1 (h.mem_filter (hold.subset (by simp)) hk')).2
  have hfilter := hold.filter (r.fresh.stays r.removeUnused)
  rw [List.filter_cons_of_pos hstays, List.filter_cons_of_pos hstays', List.filter_nil] at hfilter
  obtain ⟨added, rfl, -, -⟩ := h
  exact hfilter.trans (List.sublist_append_left _ added)

/-- A new key comes behind an old one. -/
theorem Succeeds.new_last (h : Succeeds r old new) (hk : k ∈ new) (hk' : k' ∈ new)
    (hold : k ∈ old) (hnew : k' ∉ old) : [k, k'].Sublist new := by
  have hfilter := h.mem_filter hold hk
  obtain ⟨added, rfl, -, -⟩ := h
  have hadded : k' ∈ added := by
    rcases List.mem_append.1 hk' with hk' | hk'
    · exact absurd (List.mem_filter.1 hk').1 hnew
    · exact hk'
  exact (List.singleton_sublist.2 hfilter).append (List.singleton_sublist.2 hadded)

end Order

/-! ## Any number of runs -/

/-- The keys of the catalogs before, between and after some runs. -/
inductive Evolves : List Run → List (List Message.Key) → Prop where
  | nil (ks : List Message.Key) : Evolves [] [ks]
  | cons {r : Run} {rs : List Run} {ks ks' : List Message.Key} {kss : List (List Message.Key)} :
      Succeeds r ks ks' → Evolves rs (ks' :: kss) → Evolves (r :: rs) (ks :: ks' :: kss)

/-- Two keys that stay over a stretch of catalogs do not swap. -/
def NeverSwap (history : List (List Message.Key)) : Prop :=
  ∀ (k k' : Message.Key) (i j : Nat) (before after : List Message.Key), i ≤ j →
    history[i]? = some before → history[j]? = some after →
    (∀ l ks, i ≤ l → l ≤ j → history[l]? = some ks → k ∈ ks ∧ k' ∈ ks) →
    [k, k'].Sublist before → [k, k'].Sublist after

/-- A key that is new in a catalog does not precede an old one. -/
def NewLast (history : List (List Message.Key)) : Prop :=
  ∀ (k k' : Message.Key) (i : Nat) (old new : List Message.Key),
    history[i]? = some old → history[i + 1]? = some new →
    k ∈ new → k' ∈ new → k ∈ old → k' ∉ old → [k, k'].Sublist new

theorem Evolves.succeeds {rs : List Run} {kss : List (List Message.Key)} (h : Evolves rs kss)
    {i : Nat} {old new : List Message.Key} (hold : kss[i]? = some old)
    (hnew : kss[i + 1]? = some new) : ∃ r, Succeeds r old new := by
  induction h generalizing i with
  | nil ks => simp at hnew
  | @cons r rs ks ks' kss hs _ ih =>
    cases i with
    | zero =>
      cases hold
      cases hnew
      exact ⟨r, hs⟩
    | succ i => exact ih hold hnew

theorem Evolves.neverSwap {rs : List Run} {kss : List (List Message.Key)} (h : Evolves rs kss) :
    NeverSwap kss := by
  intro k k' i j before after hij hbefore hafter hstay hsub
  induction hij generalizing after with
  | refl =>
    rw [hbefore] at hafter
    cases hafter
    exact hsub
  | @step j hij ih =>
    -- the catalog before the last one of the stretch
    have hlt : j < kss.length := by
      have := (List.getElem?_eq_some_iff.1 hafter).1
      omega
    have hmiddle : kss[j]? = some kss[j] := List.getElem?_eq_getElem hlt
    have hsub' := ih kss[j] hmiddle fun l ks hl hl' => hstay l ks hl (Nat.le_succ_of_le hl')
    obtain ⟨r, hs⟩ := h.succeeds hmiddle hafter
    obtain ⟨hk, hk'⟩ := hstay (j + 1) after (Nat.le_succ_of_le hij) (Nat.le_refl _) hafter
    exact hs.sublist hsub' hk hk'

theorem Evolves.newLast {rs : List Run} {kss : List (List Message.Key)} (h : Evolves rs kss) :
    NewLast kss := by
  intro k k' i old new hold hnew hk hk' hkold hknew
  obtain ⟨r, hs⟩ := h.succeeds hold hnew
  exact hs.new_last hk hk' hkold hknew

/-- Runs on a catalog that can be read all succeed, and so do runs on what they write. -/
theorem evolves_of_readable {catalog : Option (List Char)} (h : Readable catalog) (rs : List Run) :
    ∃ texts, catalogs catalog rs = .ok texts ∧ (∀ t ∈ texts, ∃ s, parse t = .ok s) ∧
      Evolves rs (keysOf catalog :: texts.map keySequence) := by
  induction rs generalizing catalog with
  | nil => exact ⟨[], rfl, by simp, .nil _⟩
  | cons r rs ih =>
    -- what the first run writes is what the others start from
    obtain ⟨out, hout⟩ := apply_of_readable r h
    have hparse := (settled_of_apply hout).parse_text
    have hreadable : Readable (some out.text) := by
      rintro text ⟨⟩
      exact ⟨_, hparse⟩
    obtain ⟨texts, htexts, hparses, hevolves⟩ := ih hreadable
    refine ⟨out.text :: texts, ?_, ?_, .cons (succeeds_of_apply hout) hevolves⟩
    · exact bind_eq_ok_iff.2 ⟨out, hout, bind_eq_ok_iff.2 ⟨texts, htexts, rfl⟩⟩
    · intro t ht
      rcases List.mem_cons.1 ht with rfl | ht
      · exact ⟨_, hparse⟩
      · exact hparses t ht

/-- The order of a catalog is stable over any number of runs: every catalog
    can be read, its keys are the old ones that stay and behind them the new
    ones in their order, keys that stay never swap, and a new key never
    precedes an old one. -/
theorem runs_keep_order {catalog : Option (List Char)} (h : Readable catalog) (rs : List Run) :
    ∃ texts, catalogs catalog rs = .ok texts ∧ (∀ t ∈ texts, ∃ s, parse t = .ok s) ∧
      Evolves rs (keysOf catalog :: texts.map keySequence) ∧
      NeverSwap (keysOf catalog :: texts.map keySequence) ∧
      NewLast (keysOf catalog :: texts.map keySequence) := by
  obtain ⟨texts, htexts, hparses, hevolves⟩ := evolves_of_readable h rs
  exact ⟨texts, htexts, hparses, hevolves, hevolves.neverSwap, hevolves.newLast⟩

/-- A catalog with a message that is found again and one that is not. -/
def sample : List Char := "msgid \"b\"\nmsgstr \"\"\n\nmsgid \"c\"\nmsgstr \"\"\n".toList

/-- A run that finds a message of `sample` and a new one. -/
def sampleRun : Run where
  fresh := .ofList [
    { key := ⟨"b", none⟩, occurrences := .ofList [⟨"src/A.java", 3⟩, ⟨"src/B.java", 7⟩] },
    { key := ⟨"a", some ""⟩, occurrences := .ofList [⟨"src/A.java", 9⟩] }]
  removeUnused := false
  header := {}
  charset := "UTF-8"
  scanned := ⟨⟨by decide, by decide +kernel⟩, by unfold Store.Unordered; decide⟩

/-- A later run that does not find the messages of `sample`, and drops them. -/
def laterRun : Run where
  fresh := .ofList [
    { key := ⟨"d", some "ds"⟩, occurrences := .ofList [⟨"src/C.java", 1⟩] },
    { key := ⟨"a", some ""⟩, occurrences := .ofList [⟨"src/A.java", 10⟩, ⟨"src/C.java", 2⟩] }]
  removeUnused := true
  header := { comments := ["Messages"] }
  charset := "UTF-8"
  scanned := ⟨⟨by decide, by decide +kernel⟩, by unfold Store.Unordered; decide⟩

theorem readable_sample : Readable (some sample) := by
  rintro text ⟨⟩
  exact ⟨_, rfl⟩

theorem runs_keep_order_sample :
    Readable (some sample) ∧ keysOf (some sample) = [⟨"b", none⟩, ⟨"c", none⟩] ∧
      ∃ texts, catalogs (some sample) [sampleRun, laterRun] = .ok texts ∧
        (∀ t ∈ texts, ∃ s, parse t = .ok s) ∧
        Evolves [sampleRun, laterRun] (keysOf (some sample) :: texts.map keySequence) ∧
        NeverSwap (keysOf (some sample) :: texts.map keySequence) ∧
        NewLast (keysOf (some sample) :: texts.map keySequence) :=
  ⟨readable_sample, by decide +kernel, runs_keep_order readable_sample [sampleRun, laterRun]⟩

/-! ## Repeated runs -/

/-- Positions are not written. -/
theorem messageLines_congr {m n : Message} (hk : m.key = n.key)
    (ho : m.occurrences = n.occurrences) : messageLines m = messageLines n := by
  unfold messageLines
  rw [hk, ho]

theorem render_congr {s t : Store} (h : s.sorted.map messageLines = t.sorted.map messageLines)
    (header : Header) (charset : String) : render s header charset = render t header charset := by
  have hflat : ∀ u : Store, (u.sorted.flatMap fun m => [] :: messageLines m) =
      (u.sorted.map messageLines).flatMap fun ls => [] :: ls := fun u => by
    rw [List.flatMap_map]
  unfold render catalogLines
  rw [hflat s, hflat t, h]

section Again

variable {r : Run} {out : Outcome}

/-- Nothing is dropped and nothing is new when a run is repeated. -/
theorem Settled.lineup_again (h : Settled r out) :
    r.fresh.lineup (restored out.store) r.removeUnused =
      (numbered 0 out.store.sorted).map r.fresh.renewed := by
  -- every key of the catalog stays, and every key that is found is in it
  have hold : ((restored out.store).sorted.filter fun m =>
      r.fresh.stays r.removeUnused m.key) = numbered 0 out.store.sorted := by
    rw [sorted_restored, List.filter_eq_self]
    intro m hm
    have hkey : m.key ∈ out.store.sorted.map Message.key := by
      rw [← keys_numbered 0]
      exact List.mem_map_of_mem hm
    obtain ⟨n, hn, hk⟩ := List.mem_map.1 hkey
    rw [← hk]
    exact h.stays n (Store.mem_sorted.1 hn)
  have hnew : (r.fresh.toList.filter fun m => !(restored out.store).contains m.key) = [] := by
    refine List.filter_eq_nil_iff.2 fun m hm => ?_
    rw [contains_restored, h.found m hm]
    exact Bool.false_ne_true
  rw [Store.lineup, hold, hnew, List.append_nil]

/-- A message is written again as it was: with the occurrences that are found
    again, or with those that were read and can be read once more. -/
theorem Settled.messageLines_again (h : Settled r out) {m : Message} (hm : m ∈ out.store.toList)
    (i : Nat) :
    messageLines (r.fresh.renewed ⟨m.key, .at i, .ofList (reread m.occurrences.toList)⟩) =
      messageLines m := by
  refine messageLines_congr (Store.key_renewed _ _) ?_
  rcases h.occurrences m hm with ⟨n, hn, he⟩ | ⟨hc, hrep⟩
  · have hrenewed := Store.renewed_of_find?
      (m := ⟨m.key, .at i, .ofList (reread m.occurrences.toList)⟩) hn
    rw [hrenewed]
    exact he
  · have hrenewed := Store.renewed_of_not_contains
      (m := ⟨m.key, .at i, .ofList (reread m.occurrences.toList)⟩) hc
    rw [hrenewed]
    show Sorted.ofList (reread m.occurrences.toList) = m.occurrences
    rw [reread_of_representable hrep, Sorted.ofList_toList]

theorem Settled.text_again (h : Settled r out) :
    (r.outcome (some (restored out.store))).text = out.text := by
  have hread := wellRead_of_parse h.parse_text
  have hlines : (r.outcome (some (restored out.store))).store.sorted.map messageLines =
      out.store.sorted.map messageLines := by
    rw [sorted_outcome r hread, h.lineup_again, numbered, List.map_map, List.map_map]
    calc (out.store.sorted.zipIdx 0).map _
        = (out.store.sorted.zipIdx 0).map (messageLines ∘ Prod.fst) := by
          refine List.map_congr_left fun p hp => ?_
          exact h.messageLines_again (Store.mem_sorted.1 (List.fst_mem_of_mem_zipIdx hp)) p.2
      _ = out.store.sorted.map messageLines := by rw [← List.map_map, List.zipIdx_map_fst]
  rw [h.text]
  exact render_congr hlines r.header r.charset

theorem Settled.summary_again (h : Settled r out) :
    (r.outcome (some (restored out.store))).summary =
      { added := 0, matched := r.fresh.size, retained := out.summary.retained, removed := 0 } := by
  have hfound : ∀ m ∈ r.fresh.toList, (restored out.store).contains m.key = true := by
    intro m hm
    rw [contains_restored, h.found m hm]
  have hstays : ∀ m ∈ (restored out.store).toList,
      r.fresh.stays r.removeUnused m.key = true := by
    intro m hm
    have hc := Store.contains_of_mem hm
    rw [contains_restored] at hc
    obtain ⟨n, hn, hk⟩ := Store.contains_iff.1 hc
    rw [← hk]
    exact h.stays n hn
  have hread := wellRead_of_parse h.parse_text
  have hretained : (r.outcome (some (restored out.store))).summary.retained =
      out.summary.retained := by
    rw [(settled_some r hread).retained, h.retained, sorted_outcome r hread, h.lineup_again,
      List.map_map]
    congr 2
    rw [← keys_numbered 0 out.store.sorted]
    exact List.map_congr_left fun m _ => Store.key_renewed r.fresh m
  rw [← hretained]
  exact Store.summary_reconcile hfound hstays

end Again

/-- A run that is repeated writes the same text again, and reports that
    everything was there. -/
theorem apply_again (r : Run) {catalog : Option (List Char)} (h : Readable catalog) :
    ∃ out again, r.apply catalog = .ok out ∧ r.apply (some out.text) = .ok again ∧
      again.text = out.text ∧
      again.summary =
        { added := 0
          matched := r.fresh.size
          retained := out.summary.retained
          removed := 0 } := by
  obtain ⟨out, hout⟩ := apply_of_readable r h
  have hsettled := settled_of_apply hout
  have hagain : r.apply (some out.text) = .ok (r.outcome (some (restored out.store))) :=
    bind_eq_ok_iff.2 ⟨_, hsettled.parse_text, rfl⟩
  exact ⟨out, _, hout, hagain, hsettled.text_again, hsettled.summary_again⟩

theorem apply_again_sample :
    Readable (some sample) ∧
      ∃ out again, sampleRun.apply (some sample) = .ok out ∧
        sampleRun.apply (some out.text) = .ok again ∧ again.text = out.text ∧
        again.summary =
          { added := 0, matched := sampleRun.fresh.size, retained := out.summary.retained,
            removed := 0 } :=
  ⟨readable_sample, apply_again sampleRun readable_sample⟩

end MessageHarvest.Catalog
