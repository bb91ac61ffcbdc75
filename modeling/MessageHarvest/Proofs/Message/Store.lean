import MessageHarvest.Message.Store
import MessageHarvest.Proofs.Sorted

/-! # Stores and their catalog order

    A store holds one message for each key, and `sorted` lists them in catalog
    order. That order is total and tells any two messages of a store apart, so
    the list is the only one of its kind:

    * `sorted_perm`, `pairwise_sorted`: it holds the messages of the store, in
      strictly increasing catalog order.
    * `sorted_eq_of_perm`: a list with these two properties is `sorted`. -/

namespace MessageHarvest

/-! ## Positions and catalog order -/

namespace Message.Position

instance : Std.TransOrd Position where
  eq_swap := by
    intro a b
    cases a with
    | «at» i =>
      cases b with
      | «at» j =>
        show compare i j = (compare j i).swap
        exact Std.OrientedCmp.eq_swap
      | unordered => rfl
    | unordered => cases b <;> rfl
  isLE_trans := by
    intro a b c hab hbc
    cases a with
    | «at» i =>
      cases c with
      | «at» k =>
        cases b with
        | «at» j =>
          have hij : (compare i j).isLE := hab
          have hjk : (compare j k).isLE := hbc
          show (compare i k).isLE = true
          exact Std.TransCmp.isLE_trans hij hjk
        | unordered => cases hbc
      | unordered => rfl
    | unordered =>
      cases b with
      | «at» j => cases hab
      | unordered => exact hbc

instance : Std.LawfulEqOrd Position where
  compare_self := by intro a; exact Std.ReflCmp.compare_self
  eq_of_compare := by
    intro a b h
    cases a with
    | «at» i =>
      cases b with
      | «at» j => rw [Nat.compare_eq_eq.1 h]
      | unordered => cases h
    | unordered =>
      cases b with
      | «at» j => cases h
      | unordered => rfl

end Message.Position

namespace Message

instance : Std.TransCmp catalogOrder :=
  inferInstanceAs (Std.TransCmp (compareLex (compareOn position) (compareOn key)))

/-- Messages that catalog order does not tell apart have one key. -/
theorem key_eq_of_catalogOrder_eq {a b : Message} (h : a.catalogOrder b = .eq) : a.key = b.key := by
  unfold catalogOrder at h
  rw [Ordering.then_eq_eq] at h
  exact Std.LawfulEqCmp.eq_of_compare h.2

/-- Catalog order looks at positions first, and at keys between equal positions. -/
theorem catalogOrder_eq_lt_iff {a b : Message} :
    a.catalogOrder b = .lt ↔ compare a.position b.position = .lt ∨
      (a.position = b.position ∧ compare a.key b.key = .lt) := by
  unfold catalogOrder
  rw [Ordering.then_eq_lt, Std.LawfulEqCmp.compare_eq_iff_eq]

end Message

/-! ## Stores -/

namespace Store

variable {s t : Store} {k : Message.Key} {m : Message}

theorem nodup_keys (s : Store) : (s.toList.map Message.key).Nodup := s.messages.nodup_keys

theorem eq_of_key_eq {m n : Message} (hm : m ∈ s.toList) (hn : n ∈ s.toList)
    (h : m.key = n.key) : m = n := Sorted.eq_of_key_eq hm hn h

theorem find?_eq_some_iff : s.find? k = some m ↔ m ∈ s.toList ∧ m.key = k :=
  Sorted.find?_eq_some_iff

theorem find?_eq_none_iff : s.find? k = none ↔ ∀ m ∈ s.toList, m.key ≠ k :=
  Sorted.find?_eq_none_iff

theorem mem_iff_find? : m ∈ s.toList ↔ s.find? m.key = some m :=
  ⟨fun hm => find?_eq_some_iff.2 ⟨hm, rfl⟩, fun hm => (find?_eq_some_iff.1 hm).1⟩

/-- Stores with the same messages are the same. -/
theorem ext_mem (h : ∀ m, m ∈ s.toList ↔ m ∈ t.toList) : s = t := by
  obtain ⟨messages⟩ := s
  obtain ⟨messages'⟩ := t
  exact congrArg Store.mk (Sorted.ext_mem h)

/-- Stores that find the same under every key are the same. -/
theorem ext_find? (h : ∀ k, s.find? k = t.find? k) : s = t := by
  refine ext_mem fun m => ?_
  rw [mem_iff_find?, mem_iff_find?, h]

theorem contains_iff : s.contains k = true ↔ ∃ m ∈ s.toList, m.key = k := Sorted.contains_iff

theorem contains_of_mem (hm : m ∈ s.toList) : s.contains m.key = true :=
  contains_iff.2 ⟨m, hm, rfl⟩

theorem contains_eq_false_iff : s.contains k = false ↔ s.find? k = none := by
  show (s.find? k).isSome = false ↔ _
  rw [Option.isSome_eq_false_iff, Option.isNone_iff_eq_none]

/-- Adding a message changes what its key finds and nothing else. -/
theorem find?_insert (s : Store) (m : Message) (k : Message.Key) :
    (s.insert m).find? k =
      if k = m.key then some ((s.find? k).elim m m.absorb) else s.find? k :=
  Sorted.find?_insertWith (Message.key_absorb m) m s.messages k

theorem insert_perm (h : s.find? m.key = none) : (s.insert m).toList.Perm (m :: s.toList) :=
  Sorted.insertWith_perm (Message.key_absorb m) h

/-- Adding a message to one of its key changes that one and nothing else. -/
theorem toList_insert (h : s.contains m.key = true) :
    (s.insert m).toList = s.toList.map fun n => if n.key = m.key then m.absorb n else n :=
  Sorted.toList_insertWith (Message.key_absorb m) (contains_iff.1 h)

/-- Messages with new and distinct keys are added as they are. -/
theorem foldl_insert_perm {ms : List Message} (h : ((s.toList ++ ms).map Message.key).Nodup) :
    (ms.foldl (fun s m => s.insert m) s).toList.Perm (s.toList ++ ms) := by
  induction ms generalizing s with
  | nil => simp
  | cons m ms ih =>
    have hsm : (s.toList ++ m :: ms).Perm (m :: s.toList ++ ms) := List.perm_middle
    have hnodup : ((m :: s.toList ++ ms).map Message.key).Nodup := (hsm.map _).nodup_iff.1 h
    have hnew : s.find? m.key = none := by
      refine find?_eq_none_iff.2 fun n hn e => ?_
      rw [List.cons_append, List.map_cons, List.nodup_cons] at hnodup
      exact hnodup.1 (List.mem_map.2 ⟨n, List.mem_append_left ms hn, e⟩)
    have hp : ((s.insert m).toList ++ ms).Perm (m :: s.toList ++ ms) :=
      (insert_perm hnew).append_right ms
    rw [List.foldl_cons]
    exact (ih ((hp.map _).nodup_iff.2 hnodup)).trans (hp.trans hsm.symm)

/-- Messages with distinct keys make up a store of just them. -/
theorem ofList_perm {ms : List Message} (h : (ms.map Message.key).Nodup) :
    (ofList ms).toList.Perm ms := by
  unfold ofList
  exact foldl_insert_perm (by simpa using h)

/-- Removing a message changes what its key finds and nothing else. -/
theorem find?_erase (s : Store) (k k' : Message.Key) :
    (s.erase k).find? k' = if k' = k then none else s.find? k' :=
  Sorted.find?_erase s.messages k k'

theorem mem_erase : m ∈ (s.erase k).toList ↔ m ∈ s.toList ∧ m.key ≠ k := by
  rw [mem_iff_find?, mem_iff_find?, find?_erase]
  split
  · next hk => simp [hk]
  · next hk => simp [hk]

theorem erase_of_not_contains (h : s.contains k = false) : s.erase k = s := by
  refine ext_find? fun k' => ?_
  rw [find?_erase]
  split
  · next hk => rw [hk, contains_eq_false_iff.1 h]
  · rfl

theorem mem_foldl_erase {ms : List Message} :
    m ∈ (ms.foldl (fun s n => s.erase n.key) s).toList ↔
      m ∈ s.toList ∧ ¬ ∃ n ∈ ms, n.key = m.key := by
  induction ms generalizing s with
  | nil => simp
  | cons n ms ih =>
    rw [List.foldl_cons, ih, mem_erase]
    simp [and_assoc, eq_comm]

/-! ## Catalog order -/

theorem sorted_perm (s : Store) : s.sorted.Perm s.toList := List.mergeSort_perm _ _

theorem mem_sorted : m ∈ s.sorted ↔ m ∈ s.toList := (sorted_perm s).mem_iff

theorem nodup_sorted_keys (s : Store) : (s.sorted.map Message.key).Nodup :=
  (s.sorted_perm.map _).nodup_iff.2 s.nodup_keys

theorem contains_iff_mem_keys : s.contains k = true ↔ k ∈ s.sorted.map Message.key := by
  rw [contains_iff, List.mem_map]
  constructor
  · rintro ⟨m, hm, hk⟩
    exact ⟨m, mem_sorted.2 hm, hk⟩
  · rintro ⟨m, hm, hk⟩
    exact ⟨m, mem_sorted.1 hm, hk⟩

/-- A list is in catalog order. -/
abbrev InCatalogOrder (ms : List Message) : Prop :=
  ms.Pairwise fun a b => a.catalogOrder b = .lt

/-- Catalog order looks at nothing but keys and positions. -/
theorem InCatalogOrder.map {ms : List Message} (h : InCatalogOrder ms) {f : Message → Message}
    (hf : ∀ m ∈ ms, (f m).key = m.key ∧ (f m).position = m.position) :
    InCatalogOrder (ms.map f) := by
  refine List.pairwise_map.2 (h.imp_of_mem fun {a b} ha hb hab => ?_)
  obtain ⟨hak, hap⟩ := hf a ha
  obtain ⟨hbk, hbp⟩ := hf b hb
  unfold Message.catalogOrder at hab ⊢
  rwa [hak, hap, hbk, hbp]

theorem pairwise_sorted (s : Store) : InCatalogOrder s.sorted := by
  have hne : ∀ o : Ordering, (o != .gt) = true ↔ o.isLE = true := by decide
  have hle : s.sorted.Pairwise fun a b => (a.catalogOrder b != .gt) = true := by
    refine List.pairwise_mergeSort (fun a b c hab hbc => ?_) (fun a b => ?_) s.toList
    · rw [hne] at *
      exact Std.TransCmp.isLE_trans hab hbc
    · have hswap : b.catalogOrder a = (a.catalogOrder b).swap := Std.OrientedCmp.eq_swap
      rw [hswap]
      cases a.catalogOrder b <;> rfl
  -- two messages have two keys, so neither comes out equal
  have hkeys : s.sorted.Pairwise fun a b => a.key ≠ b.key :=
    List.pairwise_map.1 s.nodup_sorted_keys
  refine (hle.and hkeys).imp fun {a b} h => ?_
  cases hab : a.catalogOrder b with
  | lt => rfl
  | eq => exact absurd (Message.key_eq_of_catalogOrder_eq hab) h.2
  | gt => simp [hab] at h

theorem sorted_eq_of_perm {ms : List Message} (hp : ms.Perm s.toList) (h : InCatalogOrder ms) :
    s.sorted = ms := by
  refine List.Perm.eq_of_pairwise (fun a b _ _ hab hba => ?_) s.pairwise_sorted h
    (s.sorted_perm.trans hp.symm)
  rw [Std.OrientedCmp.gt_of_lt hab] at hba
  cases hba

end Store

end MessageHarvest
