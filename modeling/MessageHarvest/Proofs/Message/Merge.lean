import MessageHarvest.Proofs.Message.Reconcile

/-! # Merging stores in any order

    The stores of the source files are merged pairwise, by whatever tree comes
    out. Merging is biased to the left on positions and adds one message after
    the other, so neither commutativity nor associativity can be read off it.
    Instead a store without positions is determined by two relations: which
    keys it has, and where each key occurs (`eq_of_unordered`). Merging and
    recording act on these relations as unions, so the order in which anything
    is added leaves no trace.

    * `contains_merge`, `occurs_merge`: merging is union.
    * `contains_ofRecords`, `occurs_ofRecords`: recording collects.
    * `reduction_unique`: every reduction of some stores has one result. -/

namespace MessageHarvest

theorem Message.absorb_self (m : Message) : m.absorb m = m := by
  have hunion : m.occurrences.union m.occurrences = m.occurrences := by
    refine Sorted.ext_mem fun o => ?_
    rw [Sorted.mem_union, or_self]
  have hposition : (if m.position = .unordered then m.position else m.position) = m.position :=
    ite_self _
  unfold absorb
  rw [hunion, hposition]

namespace Store

variable {s t : Store} {k : Message.Key} {o : Occurrence} {m : Message}

/-! ## What a store says -/

/-- A message with key `k` occurs at `o`. -/
def Occurs (s : Store) (k : Message.Key) (o : Occurrence) : Prop :=
  ∃ m, s.find? k = some m ∧ o ∈ m.occurrences.toList

theorem occurs_iff : s.Occurs k o ↔ ∃ m ∈ s.toList, m.key = k ∧ o ∈ m.occurrences.toList := by
  unfold Occurs
  constructor
  · rintro ⟨m, hm, ho⟩
    obtain ⟨hm, hk⟩ := find?_eq_some_iff.1 hm
    exact ⟨m, hm, hk, ho⟩
  · rintro ⟨m, hm, hk, ho⟩
    exact ⟨m, find?_eq_some_iff.2 ⟨hm, hk⟩, ho⟩

theorem occurs_of_find? (h : s.find? k = some m) : s.Occurs k o ↔ o ∈ m.occurrences.toList := by
  unfold Occurs
  rw [h]
  simp

theorem not_occurs_of_find? (h : s.find? k = none) : ¬ s.Occurs k o := by
  rintro ⟨m, hm, -⟩
  rw [h] at hm
  cases hm

@[simp] theorem contains_empty : empty.contains k = false := rfl

@[simp] theorem not_occurs_empty : ¬ empty.Occurs k o := not_occurs_of_find? rfl

theorem unordered_empty : empty.Unordered := by
  intro m hm
  cases hm

theorem position_of_find? (hs : s.Unordered) (h : s.find? k = some m) : m.position = .unordered :=
  hs m (find?_eq_some_iff.1 h).1

/-- No message has a position if none does under any key. -/
theorem unordered_of_find? (h : ∀ k m, s.find? k = some m → m.position = .unordered) :
    s.Unordered :=
  fun m hm => h m.key m (find?_eq_some_iff.2 ⟨hm, rfl⟩)

/-- Without positions, a message is in every store that says the same. -/
theorem mem_of_unordered (hs : s.Unordered) (ht : t.Unordered)
    (hkeys : ∀ k, s.contains k = true → t.contains k = true)
    (hoccurs : ∀ k o, s.Occurs k o ↔ t.Occurs k o) (hm : m ∈ s.toList) : m ∈ t.toList := by
  obtain ⟨n, hn, hk⟩ := contains_iff.1 (hkeys m.key (contains_of_mem hm))
  have hposition : m.position = n.position := by rw [hs m hm, ht n hn]
  have hoccurrences : m.occurrences = n.occurrences := by
    refine Sorted.ext_mem fun o => ?_
    rw [← occurs_of_find? (find?_eq_some_iff.2 ⟨hm, rfl⟩),
      ← occurs_of_find? (find?_eq_some_iff.2 ⟨hn, hk⟩)]
    exact hoccurs m.key o
  have hmn : m = n := by
    cases m
    cases n
    simp_all
  rw [hmn]
  exact hn

/-- A store without positions is determined by its keys and occurrences. -/
theorem eq_of_unordered (hs : s.Unordered) (ht : t.Unordered)
    (hkeys : ∀ k, s.contains k = true ↔ t.contains k = true)
    (hoccurs : ∀ k o, s.Occurs k o ↔ t.Occurs k o) : s = t := by
  refine ext_mem fun m => ⟨fun hm => ?_, fun hm => ?_⟩
  · exact mem_of_unordered hs ht (fun k => (hkeys k).1) hoccurs hm
  · exact mem_of_unordered ht hs (fun k => (hkeys k).2) (fun k o => (hoccurs k o).symm) hm

/-! ## Adding a message -/

theorem contains_insert : (s.insert m).contains k = true ↔ s.contains k = true ∨ m.key = k := by
  show ((s.insert m).find? k).isSome = true ↔ (s.find? k).isSome = true ∨ _
  rw [find?_insert]
  split
  · next h => simp [h]
  · next h => simp [Ne.symm h]

theorem occurs_insert : (s.insert m).Occurs k o ↔
    s.Occurs k o ∨ (m.key = k ∧ o ∈ m.occurrences.toList) := by
  by_cases hk : k = m.key
  · -- the message has this key, so its occurrences are added to those that are there
    subst hk
    have hfind := find?_insert s m m.key
    rw [if_pos rfl] at hfind
    rw [occurs_of_find? hfind]
    cases hs : s.find? m.key with
    | none => simp [not_occurs_of_find? hs]
    | some n =>
      rw [occurs_of_find? hs]
      show o ∈ (n.occurrences.union m.occurrences).toList ↔ _
      rw [Sorted.mem_union]
      simp
  · have hfind := find?_insert s m k
    rw [if_neg hk] at hfind
    unfold Occurs
    rw [hfind]
    simp [Ne.symm hk]

theorem unordered_insert (hs : s.Unordered) (hm : m.position = .unordered) :
    (s.insert m).Unordered := by
  refine unordered_of_find? fun k n hn => ?_
  rw [find?_insert] at hn
  split at hn
  · cases hk : s.find? k with
    | none =>
      rw [hk] at hn
      cases hn
      exact hm
    | some n' =>
      rw [hk] at hn
      cases hn
      show (if n'.position = .unordered then m.position else n'.position) = _
      rw [if_pos (position_of_find? hs hk), hm]
  · exact position_of_find? hs hn

/-- A message that is there already is not added again. -/
theorem insert_of_mem (hm : m ∈ s.toList) : s.insert m = s := by
  refine ext_find? fun k => ?_
  rw [find?_insert]
  split
  · next hk =>
    have hfind : s.find? k = some m := find?_eq_some_iff.2 ⟨hm, hk.symm⟩
    rw [hfind]
    exact congrArg some (Message.absorb_self m)
  · rfl

/-! ## Merging two stores -/

section Messages

variable {ms : List Message}

theorem contains_foldl_insert : (ms.foldl (fun s m => s.insert m) s).contains k = true ↔
    s.contains k = true ∨ ∃ m ∈ ms, m.key = k := by
  induction ms generalizing s with
  | nil => simp
  | cons m ms ih => rw [List.foldl_cons, ih, contains_insert, List.exists_mem_cons_iff, or_assoc]

theorem occurs_foldl_insert : (ms.foldl (fun s m => s.insert m) s).Occurs k o ↔
    s.Occurs k o ∨ ∃ m ∈ ms, m.key = k ∧ o ∈ m.occurrences.toList := by
  induction ms generalizing s with
  | nil => simp
  | cons m ms ih => rw [List.foldl_cons, ih, occurs_insert, List.exists_mem_cons_iff, or_assoc]

theorem unordered_foldl_insert (hs : s.Unordered) (hms : ∀ m ∈ ms, m.position = .unordered) :
    (ms.foldl (fun s m => s.insert m) s).Unordered := by
  induction ms generalizing s with
  | nil => exact hs
  | cons m ms ih =>
    obtain ⟨hm, hms⟩ := List.forall_mem_cons.1 hms
    exact ih (unordered_insert hs hm) hms

theorem foldl_insert_of_mem (h : ∀ m ∈ ms, m ∈ s.toList) :
    ms.foldl (fun s m => s.insert m) s = s := by
  induction ms with
  | nil => rfl
  | cons m ms ih =>
    obtain ⟨hm, hms⟩ := List.forall_mem_cons.1 h
    rw [List.foldl_cons, insert_of_mem hm, ih hms]

end Messages

theorem contains_merge :
    (s.merge t).contains k = true ↔ s.contains k = true ∨ t.contains k = true := by
  rw [merge, contains_foldl_insert, contains_iff (s := t)]

theorem occurs_merge : (s.merge t).Occurs k o ↔ s.Occurs k o ∨ t.Occurs k o := by
  rw [merge, occurs_foldl_insert, occurs_iff (s := t)]

theorem unordered_merge (hs : s.Unordered) (ht : t.Unordered) : (s.merge t).Unordered :=
  unordered_foldl_insert hs ht

/-- A store merged with itself stays as it is, whatever positions it has. -/
theorem merge_self (s : Store) : s.merge s = s := foldl_insert_of_mem fun _ hm => hm

/-! ## Recording occurrences -/

/-- Recording an occurrence changes what its key finds and nothing else. -/
theorem find?_record (s : Store) (k : Message.Key) (o : Occurrence) (k' : Message.Key) :
    (s.record k o).find? k' =
      if k' = k then
        some ((s.find? k').elim (Message.occurs o { key := k }) (Message.occurs o))
      else s.find? k' :=
  Sorted.find?_insertWith (Message.key_occurs o) _ s.messages k'

/-- The message that a record adds. -/
def recorded (r : Message.Key × Occurrence) : Message :=
  { key := r.1, occurrences := Sorted.empty.insert r.2 }

/-- Recording an occurrence adds a message that occurs there. -/
theorem record_eq_insert (s : Store) (r : Message.Key × Occurrence) :
    s.record r.1 r.2 = s.insert (recorded r) := by
  refine ext_find? fun k => ?_
  have hkey : (recorded r).key = r.1 := rfl
  rw [find?_record, find?_insert, hkey]
  split
  · cases s.find? k with
    | none => rfl
    | some m =>
      -- adding one occurrence is a union with a set of one
      have hunion : m.occurrences.insert r.2 =
          m.occurrences.union (recorded r).occurrences := rfl
      have hposition : (if m.position = .unordered then (recorded r).position
          else m.position) = m.position := by
        split
        · next h => rw [h]; rfl
        · rfl
      show some (Message.occurs r.2 m) = some (Message.absorb _ m)
      unfold Message.occurs Message.absorb
      rw [hunion, hposition]
  · rfl

/-- The store of some recorded occurrences. -/
def ofRecords (records : List (Message.Key × Occurrence)) : Store :=
  records.foldl (fun s r => s.record r.1 r.2) empty

section Records

variable {records : List (Message.Key × Occurrence)}

theorem ofRecords_eq (records : List (Message.Key × Occurrence)) :
    ofRecords records = ofList (records.map recorded) := by
  unfold ofRecords ofList
  rw [List.foldl_map]
  congr 1
  funext s r
  exact record_eq_insert s r

theorem contains_ofRecords :
    (ofRecords records).contains k = true ↔ ∃ o, (k, o) ∈ records := by
  rw [ofRecords_eq, ofList, contains_foldl_insert]
  simp [recorded]

theorem occurs_ofRecords : (ofRecords records).Occurs k o ↔ (k, o) ∈ records := by
  have hmem : ∀ o' : Occurrence,
      o ∈ (Sorted.empty.insert o' : Occurrences).toList ↔ o = o' := by
    intro o'
    rw [Sorted.mem_insert]
    simp
  rw [ofRecords_eq, ofList, occurs_foldl_insert]
  simp [recorded, hmem]

theorem unordered_ofRecords (records : List (Message.Key × Occurrence)) :
    (ofRecords records).Unordered := by
  rw [ofRecords_eq]
  refine unordered_foldl_insert unordered_empty fun m hm => ?_
  obtain ⟨r, -, rfl⟩ := List.mem_map.1 hm
  rfl

end Records

/-! ## Reductions -/

/-- A way to merge stores pairwise, with empty stores put in anywhere. -/
inductive Reduction where
  | store (s : Store)
  | nothing
  | merge (left right : Reduction)

namespace Reduction

/-- The stores that are merged, from left to right. -/
def stores : Reduction → List Store
  | store s => [s]
  | nothing => []
  | merge a b => a.stores ++ b.stores

/-- What comes out. -/
def result : Reduction → Store
  | store s => s
  | nothing => .empty
  | merge a b => a.result.merge b.result

theorem contains_result (r : Reduction) (k : Message.Key) :
    r.result.contains k = true ↔ ∃ s ∈ r.stores, s.contains k = true := by
  induction r with
  | store s => simp [stores, result]
  | nothing => simp [stores, result]
  | merge a b iha ihb =>
    rw [result, contains_merge, iha, ihb, stores]
    simp only [List.mem_append, or_and_right, exists_or]

theorem occurs_result (r : Reduction) (k : Message.Key) (o : Occurrence) :
    r.result.Occurs k o ↔ ∃ s ∈ r.stores, s.Occurs k o := by
  induction r with
  | store s => simp [stores, result]
  | nothing => simp [stores, result]
  | merge a b iha ihb =>
    rw [result, occurs_merge, iha, ihb, stores]
    simp only [List.mem_append, or_and_right, exists_or]

theorem unordered_result {r : Reduction} (h : ∀ s ∈ r.stores, s.Unordered) :
    r.result.Unordered := by
  induction r with
  | store s => exact h s (by simp [stores])
  | nothing => exact unordered_empty
  | merge a b iha ihb =>
    rw [stores] at h
    obtain ⟨ha, hb⟩ := List.forall_mem_append.1 h
    exact unordered_merge (iha ha) (ihb hb)

/-- Merging from the left, one store after the other. -/
theorem stores_foldl (ss : List Store) (r : Reduction) :
    (ss.foldl (fun r s => r.merge (.store s)) r).stores = r.stores ++ ss := by
  induction ss generalizing r with
  | nil => simp
  | cons s ss ih =>
    rw [List.foldl_cons, ih]
    simp [stores]

theorem result_foldl (ss : List Store) (r : Reduction) :
    (ss.foldl (fun r s => r.merge (.store s)) r).result = ss.foldl Store.merge r.result := by
  induction ss generalizing r with
  | nil => rfl
  | cons s ss ih =>
    rw [List.foldl_cons, ih]
    rfl

end Reduction

/-- The store that says, without positions, what some stores say together. -/
structure IsUnion (stores : List Store) (u : Store) : Prop where
  unordered : u.Unordered
  contains_iff : ∀ k, u.contains k = true ↔ ∃ s ∈ stores, s.contains k = true
  occurs_iff : ∀ k o, u.Occurs k o ↔ ∃ s ∈ stores, s.Occurs k o

theorem IsUnion.unique {stores : List Store} {u v : Store} (hu : IsUnion stores u)
    (hv : IsUnion stores v) : u = v :=
  eq_of_unordered hu.unordered hv.unordered
    (fun k => (hu.contains_iff k).trans (hv.contains_iff k).symm)
    (fun k o => (hu.occurs_iff k o).trans (hv.occurs_iff k o).symm)

theorem isUnion_result {stores : List Store} (h : ∀ s ∈ stores, s.Unordered) {r : Reduction}
    (hr : r.stores.Perm stores) : IsUnion stores r.result where
  unordered := Reduction.unordered_result fun s hs => h s (hr.mem_iff.1 hs)
  contains_iff k := by
    rw [r.contains_result]
    exact exists_congr fun s => and_congr_left fun _ => hr.mem_iff
  occurs_iff k o := by
    rw [r.occurs_result]
    exact exists_congr fun s => and_congr_left fun _ => hr.mem_iff

/-- Records of several files, in any order and with any repetitions, say what
    the stores of the files say together. -/
theorem isUnion_ofRecords {files : List (List (Message.Key × Occurrence))}
    {records : List (Message.Key × Occurrence)}
    (h : ∀ r, r ∈ records ↔ ∃ file ∈ files, r ∈ file) :
    IsUnion (files.map ofRecords) (ofRecords records) where
  unordered := unordered_ofRecords records
  contains_iff k := by
    simp only [contains_ofRecords, h, List.mem_map, exists_exists_and_eq_and]
    constructor
    · rintro ⟨o, file, hfile, hr⟩
      exact ⟨file, hfile, o, hr⟩
    · rintro ⟨file, hfile, o, hr⟩
      exact ⟨o, file, hfile, hr⟩
  occurs_iff k o := by
    simp only [occurs_ofRecords, h, List.mem_map, exists_exists_and_eq_and]

/-- Every reduction of stores without positions, in any order, by any tree and
    with empty stores put in anywhere, has one result: the union of the stores.
    Recording their occurrences one by one, in any order and with any
    repetitions, gives it too. A store merged with itself stays as it is. -/
theorem reduction_unique {stores : List Store} (h : ∀ s ∈ stores, s.Unordered) {r : Reduction}
    (hr : r.stores.Perm stores) :
    (∀ u, IsUnion stores u ↔ u = r.result) ∧
    (∀ r' : Reduction, r'.stores.Perm stores → r'.result = r.result) ∧
    stores.foldl Store.merge .empty = r.result ∧
    (∀ (files : List (List (Message.Key × Occurrence))) (records : List (Message.Key × Occurrence)),
      stores = files.map ofRecords → (∀ c, c ∈ records ↔ ∃ file ∈ files, c ∈ file) →
      ofRecords records = r.result) ∧
    ∀ s : Store, s.merge s = s := by
  have hunion : IsUnion stores r.result := isUnion_result h hr
  refine ⟨fun u => ⟨fun hu => hu.unique hunion, ?_⟩, ?_, ?_, ?_, merge_self⟩
  · rintro rfl
    exact hunion
  · intro r' hr'
    exact (isUnion_result h hr').unique hunion
  · have hfold : stores.foldl Store.merge .empty = _ :=
      (Reduction.result_foldl stores .nothing).symm
    rw [hfold]
    refine (isUnion_result h ?_).unique hunion
    rw [Reduction.stores_foldl]
    exact List.Perm.refl _
  · rintro files records rfl hrecords
    exact (isUnion_ofRecords hrecords).unique hunion

/-- The records of two files that share a message. -/
def sampleFiles : List (List (Message.Key × Occurrence)) :=
  [[(⟨"b", none⟩, ⟨"B.java", 2⟩)],
   [(⟨"b", none⟩, ⟨"a.java", 7⟩), (⟨"a", some "as"⟩, ⟨"a.java", 3⟩)]]

/-- The stores of the two files, the second one first and with an empty store in between. -/
def sampleReduction : Reduction :=
  .merge (.store (ofRecords [(⟨"b", none⟩, ⟨"a.java", 7⟩), (⟨"a", some "as"⟩, ⟨"a.java", 3⟩)]))
    (.merge .nothing (.store (ofRecords [(⟨"b", none⟩, ⟨"B.java", 2⟩)])))

theorem reduction_unique_sample :
    (∀ s ∈ sampleFiles.map ofRecords, s.Unordered) ∧
    sampleReduction.stores.Perm (sampleFiles.map ofRecords) ∧
    IsUnion (sampleFiles.map ofRecords) sampleReduction.result ∧
    ofRecords (sampleFiles.flatten.reverse ++ sampleFiles.flatten) = sampleReduction.result := by
  have h : ∀ s ∈ sampleFiles.map ofRecords, s.Unordered := by
    intro s hs
    obtain ⟨file, -, rfl⟩ := List.mem_map.1 hs
    exact unordered_ofRecords file
  have hr : sampleReduction.stores.Perm (sampleFiles.map ofRecords) := List.Perm.swap _ _ []
  obtain ⟨hunion, -, -, hrecords, -⟩ := reduction_unique h hr
  refine ⟨h, hr, (hunion _).2 rfl, hrecords sampleFiles _ rfl fun c => ?_⟩
  rw [List.mem_append, List.mem_reverse, or_self, List.mem_flatten]

end Store

end MessageHarvest
