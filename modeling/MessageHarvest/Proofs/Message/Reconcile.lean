import MessageHarvest.Proofs.Message.Loop

/-! # The order of a reconciled store

    All messages of a previous catalog have a position, and those of a fresh
    store have none. So in the reconciled store the messages that were there
    before come first, in the order they had, and the new ones come behind
    them in the order of their keys (`sorted_reconcile`). -/

namespace MessageHarvest.Store

variable {fresh previous : Store} {removeUnused : Bool}

/-- All messages have a position. -/
def Positioned (s : Store) : Prop := ∀ m ∈ s.toList, m.position ≠ .unordered

/-- No message has a position. -/
def Unordered (s : Store) : Prop := ∀ m ∈ s.toList, m.position = .unordered

/-! ## Messages that stay -/

/-- Whether a message of the previous store is in the reconciled one. -/
def stays (fresh : Store) (removeUnused : Bool) (k : Message.Key) : Bool :=
  fresh.contains k || !removeUnused

/-- What becomes of a message of the previous store that stays. -/
def renewed (fresh : Store) (m : Message) : Message :=
  match fresh.find? m.key with
  | some n => { n with position := m.position }
  | none => m

theorem renewed_of_find? {m n : Message} (h : fresh.find? m.key = some n) :
    fresh.renewed m = { n with position := m.position } := by
  rw [renewed, h]

theorem renewed_of_not_contains {m : Message} (h : fresh.contains m.key = false) :
    fresh.renewed m = m := by
  rw [renewed, contains_eq_false_iff.1 h]

@[simp] theorem key_renewed (fresh : Store) (m : Message) : (fresh.renewed m).key = m.key := by
  unfold renewed
  split
  · next n h => exact (find?_eq_some_iff.1 h).2
  · rfl

@[simp] theorem position_renewed (fresh : Store) (m : Message) :
    (fresh.renewed m).position = m.position := by
  unfold renewed
  split <;> rfl

/-! ## The messages of a reconciled store -/

theorem keys_parts : (parts fresh previous removeUnused).map Message.key =
    fresh.toList.map Message.key ++
      (if removeUnused then [] else previous.unused fresh).map Message.key := by
  rw [parts, List.map_append, List.map_map]
  rfl

theorem nodup_keys_parts : ((parts fresh previous removeUnused).map Message.key).Nodup := by
  have hunused : ((previous.unused fresh).map Message.key).Nodup :=
    previous.nodup_sorted_keys.sublist (List.filter_sublist.map _)
  have hdisjoint : ∀ k ∈ fresh.toList.map Message.key,
      ∀ k' ∈ (previous.unused fresh).map Message.key, k ≠ k' := by
    rintro k hk k' hk' rfl
    obtain ⟨n, hn, rfl⟩ := List.mem_map.1 hk
    obtain ⟨m, hm, e⟩ := List.mem_map.1 hk'
    have hm' := (mem_unused.1 hm).2
    rw [e, contains_of_mem hn] at hm'
    cases hm'
  rw [keys_parts]
  cases removeUnused with
  | true => simpa using fresh.nodup_keys
  | false => exact List.nodup_append.2 ⟨fresh.nodup_keys, hunused, hdisjoint⟩

/-- The messages of a reconciled store: what was there and stays, and what is new. -/
def lineup (fresh previous : Store) (removeUnused : Bool) : List Message :=
  (previous.sorted.filter fun m => fresh.stays removeUnused m.key).map fresh.renewed ++
    fresh.toList.filter fun m => !previous.contains m.key

theorem keys_lineup : (lineup fresh previous removeUnused).map Message.key =
    (previous.sorted.map Message.key).filter (fresh.stays removeUnused) ++
      (fresh.toList.map Message.key).filter fun k => !previous.contains k := by
  rw [lineup, List.map_append, List.map_map, List.filter_map, List.filter_map]
  congr 1
  exact List.map_congr_left fun m _ => key_renewed fresh m

theorem nodup_keys_lineup : ((lineup fresh previous removeUnused).map Message.key).Nodup := by
  rw [keys_lineup]
  refine List.nodup_append.2
    ⟨previous.nodup_sorted_keys.filter _, fresh.nodup_keys.filter _, ?_⟩
  rintro k hk k' hk' rfl
  have hin := contains_iff_mem_keys.2 (List.mem_filter.1 hk).1
  have hout := (List.mem_filter.1 hk').2
  rw [hin] at hout
  cases hout

theorem mem_lineup_iff (hfresh : fresh.Unordered) {m : Message} :
    m ∈ lineup fresh previous removeUnused ↔ m ∈ parts fresh previous removeUnused := by
  unfold lineup parts
  rw [List.mem_append, List.mem_append]
  constructor
  · -- a message that stays was found or is kept; one that is new was found
    rintro (h | h)
    · obtain ⟨p, hfilter, rfl⟩ := List.mem_map.1 h
      obtain ⟨hsorted, hstays⟩ := List.mem_filter.1 hfilter
      have hp : p ∈ previous.toList := mem_sorted.1 hsorted
      cases hc : fresh.contains p.key with
      | true =>
        obtain ⟨n, hn, hk⟩ := contains_iff.1 hc
        refine .inl (List.mem_map.2 ⟨n, hn, ?_⟩)
        rw [renewed_of_find? (find?_eq_some_iff.2 ⟨hn, hk⟩), hk, positionOf_of_mem hp]
      | false =>
        have hkeep : removeUnused = false := by simpa [stays, hc] using hstays
        subst hkeep
        rw [renewed_of_not_contains hc]
        exact .inr (mem_unused.2 ⟨hp, hc⟩)
    · obtain ⟨hm, hnew⟩ := List.mem_filter.1 h
      refine .inl (List.mem_map.2 ⟨m, hm, ?_⟩)
      rw [positionOf_of_not_contains (by simpa using hnew), ← hfresh m hm]
  · -- a message that was found was there or is new; one that is kept was there
    rintro (h | h)
    · obtain ⟨n, hn, rfl⟩ := List.mem_map.1 h
      cases hc : previous.contains n.key with
      | true =>
        obtain ⟨p, hp, hk⟩ := contains_iff.1 hc
        refine .inl (List.mem_map.2 ⟨p, List.mem_filter.2 ⟨mem_sorted.2 hp, ?_⟩, ?_⟩)
        · rw [stays, hk, contains_of_mem hn]
          rfl
        · rw [renewed_of_find? (find?_eq_some_iff.2 ⟨hn, hk.symm⟩), ← hk, positionOf_of_mem hp]
      | false =>
        refine .inr (List.mem_filter.2 ⟨?_, by simp [hc]⟩)
        rw [positionOf_of_not_contains hc, ← hfresh n hn]
        exact hn
    · cases removeUnused with
      | true => cases h
      | false =>
        obtain ⟨hp, hc⟩ := mem_unused.1 h
        refine .inl (List.mem_map.2 ⟨m, List.mem_filter.2 ⟨mem_sorted.2 hp, ?_⟩, ?_⟩)
        · simp [stays]
        · exact renewed_of_not_contains hc

/-! ## The catalog order of a reconciled store -/

/-- Without positions, catalog order is the order of the keys. -/
theorem inCatalogOrder_of_unordered {ms : List Message}
    (h : ms.Pairwise fun a b => compare a.key b.key = .lt)
    (hms : ∀ m ∈ ms, m.position = .unordered) : InCatalogOrder ms := by
  refine h.imp_of_mem fun {a b} ha hb hab => ?_
  rw [Message.catalogOrder_eq_lt_iff, hms a ha, hms b hb]
  exact .inr ⟨rfl, hab⟩

theorem sorted_of_unordered (h : fresh.Unordered) : fresh.sorted = fresh.toList :=
  sorted_eq_of_perm (List.Perm.refl _) (inCatalogOrder_of_unordered fresh.messages.increasing h)

theorem inCatalogOrder_lineup (hfresh : fresh.Unordered) (hprevious : previous.Positioned) :
    InCatalogOrder (lineup fresh previous removeUnused) := by
  refine List.pairwise_append.2 ⟨?_, ?_, ?_⟩
  · exact InCatalogOrder.map (previous.pairwise_sorted.filter _) fun m _ =>
      ⟨key_renewed fresh m, position_renewed fresh m⟩
  · refine inCatalogOrder_of_unordered (fresh.messages.increasing.filter _) fun m hm => ?_
    exact hfresh m (List.mem_filter.1 hm).1
  · intro a ha b hb
    obtain ⟨p, hp, rfl⟩ := List.mem_map.1 ha
    have hposition := hprevious p (mem_sorted.1 (List.mem_filter.1 hp).1)
    rw [Message.catalogOrder_eq_lt_iff, position_renewed, hfresh b (List.mem_filter.1 hb).1]
    cases he : p.position with
    | «at» i => exact .inl rfl
    | unordered => exact absurd he hposition

/-- What was there and stays keeps its order, and what is new comes behind it. -/
theorem sorted_reconcile (hfresh : fresh.Unordered) (hprevious : previous.Positioned) :
    (fresh.reconcile (some previous) removeUnused).1.sorted =
      lineup fresh previous removeUnused := by
  -- both lists have distinct keys, so they agree as soon as their members do
  have hperm : (lineup fresh previous removeUnused).Perm (parts fresh previous removeUnused) :=
    (List.perm_ext_iff_of_nodup nodup_keys_lineup.of_map nodup_keys_parts.of_map).2
      fun _ => mem_lineup_iff hfresh
  have hstore : (fresh.reconcile (some previous) removeUnused).1.toList.Perm
      (parts fresh previous removeUnused) := by
    rw [reconcile_some]
    exact ofList_perm nodup_keys_parts
  exact sorted_eq_of_perm (hperm.trans hstore.symm) (inCatalogOrder_lineup hfresh hprevious)

/-! ## What a reconciliation reports -/

/-- Kept messages are reported in catalog order. -/
theorem retained_reconcile :
    (fresh.reconcile (some previous) removeUnused).2.retained =
      (((previous.sorted.map Message.key).filter fun k => !fresh.contains k && !removeUnused).map
        Message.Key.singular) := by
  rw [List.filter_map, List.map_map, reconcile_some]
  cases removeUnused with
  | true => simp
  | false => simp [unused, Function.comp_def]

/-- Nothing is added or removed if all keys are there and those that are not
    found now are kept. -/
theorem summary_reconcile (hfresh : ∀ m ∈ fresh.toList, previous.contains m.key = true)
    (hstays : ∀ m ∈ previous.toList, fresh.stays removeUnused m.key = true) :
    (fresh.reconcile (some previous) removeUnused).2 =
      { added := 0
        matched := fresh.size
        retained := (fresh.reconcile (some previous) removeUnused).2.retained
        removed := 0 } := by
  have hadded : (fresh.toList.filter fun m => !previous.contains m.key) = [] :=
    List.filter_eq_nil_iff.2 fun m hm => by simp [hfresh m hm]
  have hremoved : removeUnused = true → previous.unused fresh = [] := by
    rintro rfl
    refine List.filter_eq_nil_iff.2 fun m hm => ?_
    simpa [stays] using hstays m (mem_sorted.1 hm)
  rw [reconcile_some, hadded, List.filter_eq_self.2 hfresh]
  cases removeUnused with
  | true => rw [hremoved rfl]; rfl
  | false => rfl

end MessageHarvest.Store
