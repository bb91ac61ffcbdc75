import Mathlib.Data.Finset.Card
import MessageHarvest.Proofs.Message.Reconcile

/-! # What a reconciliation leaves behind

    The reconciled store is described key by key, whatever positions the two
    stores carry and however they overlap:

    * `find?_reconcile_found`: a key found now has the message found now, at
      the position of the previous store.
    * `find?_reconcile_unused`: any other key has the message of the previous
      store, unless unused messages are removed.
    * `length_unused`, `matched_reconcile`, `added_reconcile`: the counts are
      the sizes of the difference and the intersection of the two key sets.

    `Reconciled` puts together what holds of a reconciled store and of its
    summary. -/

namespace MessageHarvest.Store

variable {fresh previous : Store} {removeUnused : Bool}

/-! ## Sets of keys -/

/-- The keys of a store as a set. -/
def keys (s : Store) : Finset Message.Key := (s.toList.map Message.key).toFinset

@[simp] theorem mem_keys {s : Store} {k : Message.Key} : k ∈ s.keys ↔ s.contains k = true := by
  rw [keys, List.mem_toFinset, List.mem_map, contains_iff]

theorem card_keys (s : Store) : s.keys.card = s.size := by
  rw [keys, List.toFinset_card_of_nodup s.nodup_keys, List.length_map]
  rfl

/-- Messages are counted by their keys. -/
theorem length_filter_keys (s : Store) (p : Message.Key → Bool) :
    (s.toList.filter fun m => p m.key).length = (s.keys.filter fun k => p k = true).card := by
  have hnodup : ((s.toList.filter fun m => p m.key).map Message.key).Nodup :=
    s.nodup_keys.sublist (List.filter_sublist.map _)
  have hkeys : s.keys.filter (fun k => p k = true) =
      ((s.toList.filter fun m => p m.key).map Message.key).toFinset := by
    ext k
    rw [Finset.mem_filter, mem_keys, contains_iff, List.mem_toFinset, List.mem_map]
    constructor
    · rintro ⟨⟨m, hm, rfl⟩, hp⟩
      exact ⟨m, List.mem_filter.2 ⟨hm, hp⟩, rfl⟩
    · rintro ⟨m, hm, rfl⟩
      obtain ⟨hm, hp⟩ := List.mem_filter.1 hm
      exact ⟨⟨m, hm, rfl⟩, hp⟩
  rw [hkeys, List.toFinset_card_of_nodup hnodup, List.length_map]

/-! ## The store, key by key -/

theorem mem_reconcile {m : Message} :
    m ∈ (fresh.reconcile (some previous) removeUnused).1.toList ↔
      m ∈ parts fresh previous removeUnused := by
  rw [reconcile_some]
  exact (ofList_perm nodup_keys_parts).mem_iff

/-- A key that is found now has the occurrences found now. -/
theorem find?_reconcile_found {k : Message.Key} {m : Message} (h : fresh.find? k = some m) :
    (fresh.reconcile (some previous) removeUnused).1.find? k =
      some { m with position := previous.positionOf k } := by
  obtain ⟨hm, rfl⟩ := find?_eq_some_iff.1 h
  refine find?_eq_some_iff.2 ⟨mem_reconcile.2 ?_, rfl⟩
  exact List.mem_append_left _ (List.mem_map.2 ⟨m, hm, rfl⟩)

/-- A key that is not found now has what it had, unless that is removed. -/
theorem find?_reconcile_unused {k : Message.Key} (h : fresh.find? k = none) :
    (fresh.reconcile (some previous) removeUnused).1.find? k =
      if removeUnused then none else previous.find? k := by
  have hunused : ∀ m : Message, m.key = k →
      (m ∈ parts fresh previous removeUnused ↔ m ∈ previous.toList ∧ removeUnused = false) := by
    rintro m rfl
    unfold parts
    rw [List.mem_append]
    constructor
    · rintro (hm | hm)
      · obtain ⟨n, hn, e⟩ := List.mem_map.1 hm
        exact absurd (congrArg Message.key e) (find?_eq_none_iff.1 h n hn)
      · cases removeUnused with
        | true => cases hm
        | false => exact ⟨(mem_unused.1 hm).1, rfl⟩
    · rintro ⟨hm, rfl⟩
      exact .inr (mem_unused.2 ⟨hm, contains_eq_false_iff.2 h⟩)
  ext m
  rw [find?_eq_some_iff, mem_reconcile]
  constructor
  · rintro ⟨hm, hk⟩
    obtain ⟨hp, rfl⟩ := (hunused m hk).1 hm
    exact find?_eq_some_iff.2 ⟨hp, hk⟩
  · intro hm
    cases removeUnused with
    | true => cases hm
    | false =>
      obtain ⟨hp, hk⟩ := find?_eq_some_iff.1 hm
      exact ⟨(hunused m hk).2 ⟨hp, rfl⟩, hk⟩

theorem contains_reconcile {k : Message.Key} :
    (fresh.reconcile (some previous) removeUnused).1.contains k = true ↔
      fresh.contains k = true ∨ (previous.contains k = true ∧ removeUnused = false) := by
  have hsome : ∀ s : Store, s.contains k = (s.find? k).isSome := fun _ => rfl
  rw [hsome, hsome, hsome]
  cases h : fresh.find? k with
  | some m => simp [find?_reconcile_found h]
  | none => cases removeUnused <;> simp [find?_reconcile_unused h]

/-! ## Counts -/

theorem length_unused (fresh previous : Store) :
    (previous.unused fresh).length = (previous.keys \ fresh.keys).card := by
  have hperm : (previous.unused fresh).Perm
      (previous.toList.filter fun m => !fresh.contains m.key) := previous.sorted_perm.filter _
  rw [hperm.length_eq, previous.length_filter_keys fun k => !fresh.contains k]
  congr 1
  ext k
  simp

theorem matched_reconcile :
    (fresh.reconcile (some previous) removeUnused).2.matched =
      (fresh.keys ∩ previous.keys).card := by
  rw [reconcile_some]
  dsimp only
  rw [fresh.length_filter_keys fun k => previous.contains k]
  congr 1
  ext k
  simp

theorem added_reconcile :
    (fresh.reconcile (some previous) removeUnused).2.added =
      (fresh.keys \ previous.keys).card := by
  rw [reconcile_some]
  dsimp only
  rw [fresh.length_filter_keys fun k => !previous.contains k]
  congr 1
  ext k
  simp

/-- Unused messages are reported as kept or counted as removed. -/
theorem retained_add_removed :
    (fresh.reconcile (some previous) removeUnused).2.retained.length +
        (fresh.reconcile (some previous) removeUnused).2.removed =
      (previous.keys \ fresh.keys).card := by
  rw [← length_unused, reconcile_some]
  cases removeUnused <;> simp

theorem size_reconcile :
    (fresh.reconcile (some previous) removeUnused).1.size =
      fresh.size + (fresh.reconcile (some previous) removeUnused).2.retained.length := by
  rw [reconcile_some]
  show (ofList (parts fresh previous removeUnused)).toList.length = fresh.toList.length + _
  rw [(ofList_perm nodup_keys_parts).length_eq, parts, List.length_append, List.length_map,
    List.length_map]

/-! ## The specification -/

/-- What holds of a reconciled store and of its summary. -/
structure Reconciled (fresh previous : Store) (removeUnused : Bool) (result : Store)
    (summary : Reconciliation) : Prop where
  contains_iff : ∀ k, result.contains k = true ↔
    fresh.contains k = true ∨ (previous.contains k = true ∧ removeUnused = false)
  /-- What is found now has the occurrences found now and the position it had. -/
  found : ∀ k m, fresh.find? k = some m → ∃ n, result.find? k = some n ∧ n.key = k ∧
    n.occurrences = m.occurrences ∧ (∀ p, previous.find? k = some p → n.position = p.position) ∧
    (previous.find? k = none → n.position = .unordered)
  /-- What only the previous store has is kept as it was, if it is kept. -/
  kept : ∀ k n, fresh.contains k = false → result.find? k = some n → previous.find? k = some n
  added : summary.added = (fresh.keys \ previous.keys).card
  matched : summary.matched = (fresh.keys ∩ previous.keys).card
  added_add_matched : summary.added + summary.matched = fresh.size
  previous_size : summary.matched + summary.retained.length + summary.removed = previous.size
  result_size : result.size = fresh.size + summary.retained.length
  /-- Kept messages are reported in catalog order, each key once. -/
  retained : ∃ ms : List Message, summary.retained = ms.map (fun m => m.key.singular) ∧
    InCatalogOrder ms ∧ (ms.map Message.key).Nodup ∧
    ∀ m, m ∈ ms ↔ m ∈ previous.toList ∧ fresh.contains m.key = false ∧
      result.contains m.key = true
  retained_eq_nil : removeUnused = true → summary.retained = []

/-- The reported messages are the kept ones, in the order of the previous store. -/
theorem retained_reconcile_spec :
    ∃ ms : List Message,
      (fresh.reconcile (some previous) removeUnused).2.retained =
        ms.map (fun m => m.key.singular) ∧
      InCatalogOrder ms ∧ (ms.map Message.key).Nodup ∧
      ∀ m, m ∈ ms ↔ m ∈ previous.toList ∧ fresh.contains m.key = false ∧
        (fresh.reconcile (some previous) removeUnused).1.contains m.key = true := by
  refine ⟨if removeUnused then [] else previous.unused fresh, by rw [reconcile_some], ?_, ?_,
    fun m => ?_⟩
  · cases removeUnused with
    | true => exact List.Pairwise.nil
    | false => exact previous.pairwise_sorted.filter _
  · have hkeys : ((parts fresh previous removeUnused).map Message.key).Nodup := nodup_keys_parts
    rw [keys_parts] at hkeys
    exact (List.nodup_append.1 hkeys).2.1
  · rw [contains_reconcile]
    cases removeUnused with
    | true => simp +contextual
    | false =>
      show m ∈ previous.unused fresh ↔ _
      rw [mem_unused]
      constructor
      · rintro ⟨hm, hnew⟩
        exact ⟨hm, hnew, .inr ⟨contains_of_mem hm, rfl⟩⟩
      · rintro ⟨hm, hnew, -⟩
        exact ⟨hm, hnew⟩

theorem reconciled_some (fresh previous : Store) (removeUnused : Bool) :
    Reconciled fresh previous removeUnused (fresh.reconcile (some previous) removeUnused).1
      (fresh.reconcile (some previous) removeUnused).2 where
  contains_iff _ := contains_reconcile
  found k m h := by
    refine ⟨_, find?_reconcile_found h, (find?_eq_some_iff.1 h).2, rfl, ?_, ?_⟩
    · intro p hp
      show previous.positionOf k = _
      rw [positionOf, hp]
    · intro hp
      show previous.positionOf k = _
      rw [positionOf, hp]
  kept k n hnew hn := by
    rw [find?_reconcile_unused (contains_eq_false_iff.1 hnew)] at hn
    cases removeUnused with
    | true => cases hn
    | false => exact hn
  added := added_reconcile
  matched := matched_reconcile
  added_add_matched := by
    rw [added_reconcile, matched_reconcile, Finset.card_sdiff_add_card_inter, card_keys]
  previous_size := by
    rw [Nat.add_assoc, retained_add_removed, matched_reconcile, Finset.inter_comm, Nat.add_comm,
      Finset.card_sdiff_add_card_inter, card_keys]
  result_size := size_reconcile
  retained := retained_reconcile_spec
  retained_eq_nil h := by
    subst h
    rw [reconcile_some]
    rfl

/-- A reconciliation does what it should for every two stores, and without a
    previous store it changes nothing and counts everything as new. -/
theorem reconcile_reconciled (fresh : Store) (removeUnused : Bool) :
    (∀ previous, Reconciled fresh previous removeUnused
      (fresh.reconcile (some previous) removeUnused).1
      (fresh.reconcile (some previous) removeUnused).2) ∧
    fresh.reconcile none removeUnused =
      (fresh, { added := fresh.size, matched := 0, retained := [], removed := 0 }) :=
  ⟨fun previous => reconciled_some fresh previous removeUnused, rfl⟩

end MessageHarvest.Store
