import Mathlib.Algebra.GroupWithZero.Nat
import MessageHarvest.Catalog.Entry
import MessageHarvest.Catalog.Render
import MessageHarvest.Proofs.Message.Merge
import MessageHarvest.Proofs.Message.Reconciliation

/-! # Stores under any operations

    A store is changed by recording, adding, merging, removing and reconciling
    messages, and it is replaced as a whole when its catalog is read. What a
    change makes of the message of a key depends on that message alone, so
    every key has a history of its own:

    * `Change.find?_apply`: a change acts on each key by itself.
    * `find?_changed`: so does every sequence of changes.
    * `coherent_run`: whatever the operations were, there is one message for
      each key, its occurrences are in order, and the catalog order lists every
      message once. -/

namespace MessageHarvest

namespace Store

variable {s t : Store} {k : Message.Key} {m : Message}

/-! ## Operations -/

/-- A change of the messages of a store. -/
inductive Change where
  | record (key : Message.Key) (occurrence : Occurrence)
  | insert (message : Message)
  | merge (other : Store)
  | remove (key : Message.Key)
  | reconcile (previous : Option Store) (removeUnused : Bool)

/-- The store behind a change. -/
def Change.apply (s : Store) : Change → Store
  | record k o => (s.recordNew k o).2
  | insert m => s.insert m
  | merge t => s.merge t
  | remove k => s.erase k
  | reconcile previous removeUnused => (s.reconcile previous removeUnused).1

/-- What can be done with a store. -/
inductive Operation where
  | change (c : Change)
  /-- Writes the catalog and reads it again. -/
  | reload (header : Catalog.Header) (charset : String)

/-- The store behind an operation. It stays as it is if its catalog cannot be
    read. -/
def Operation.apply (s : Store) : Operation → Store
  | change c => c.apply s
  | reload header charset =>
    match Catalog.parse (Catalog.render s header charset) with
    | .ok t => t
    | .error _ => s

/-- The store behind some operations on an empty one. -/
def run (ops : List Operation) : Store := ops.foldl Operation.apply empty

/-! ## Single changes, key by key -/

theorem recordNew_snd (s : Store) (k : Message.Key) (o : Occurrence) :
    (s.recordNew k o).2 = s.record k o := by
  unfold recordNew
  split <;> rfl

/-- A message is new if its key was not there. -/
theorem recordNew_fst (s : Store) (k : Message.Key) (o : Occurrence) :
    (s.recordNew k o).1 = true ↔ s.find? k = none := by
  unfold recordNew
  cases s.find? k <;> simp

/-- Messages with distinct keys are added each under its own. -/
theorem find?_foldl_insert {ms : List Message} (h : (ms.map Message.key).Nodup) :
    (ms.foldl (fun s m => s.insert m) s).find? k =
      match ms.find? fun m => m.key = k with
      | some n => some ((s.find? k).elim n n.absorb)
      | none => s.find? k := by
  induction ms generalizing s with
  | nil => rfl
  | cons m ms ih =>
    obtain ⟨hm, hms⟩ := List.nodup_cons.1 h
    rw [List.foldl_cons, ih hms, find?_insert, List.find?_cons]
    by_cases hk : m.key = k
    · -- no message behind it has the key
      have hnone : ms.find? (fun n => n.key = k) = none := by
        refine List.find?_eq_none.2 fun n hn hnk => hm ?_
        rw [hk, ← of_decide_eq_true hnk]
        exact List.mem_map_of_mem hn
      simp [hk, hnone]
    · simp [hk, Ne.symm hk]

theorem find?_merge : (s.merge t).find? k =
    match t.find? k with
    | some n => some ((s.find? k).elim n n.absorb)
    | none => s.find? k := by
  have hfind : t.toList.find? (fun m => m.key = k) = t.find? k := by
    show _ = t.toList.find? _
    congr 1
    funext m
    rw [Bool.eq_iff_iff, decide_eq_true_iff, beq_iff_eq, Std.LawfulEqCmp.compare_eq_iff_eq]
  rw [merge, find?_foldl_insert t.nodup_keys, hfind]

namespace Change

/-- What a change makes of the message of a key. -/
def effect (k : Message.Key) : Option Message → Change → Option Message
  | m?, record k' o =>
    if k = k' then some (m?.elim (Message.occurs o { key := k }) (Message.occurs o)) else m?
  | m?, insert n => if k = n.key then some (m?.elim n n.absorb) else m?
  | m?, merge t =>
    match t.find? k with
    | some n => some (m?.elim n n.absorb)
    | none => m?
  | m?, remove k' => if k = k' then none else m?
  | m?, reconcile none _ => m?
  | some m, reconcile (some previous) _ => some { m with position := previous.positionOf k }
  | none, reconcile (some previous) removeUnused =>
    if removeUnused then none else previous.find? k

/-- A change acts on each key by itself. -/
theorem find?_apply (c : Change) (s : Store) (k : Message.Key) :
    (c.apply s).find? k = c.effect k (s.find? k) := by
  cases c with
  | record k' o =>
    show (s.recordNew k' o).2.find? k = _
    rw [recordNew_snd, find?_record]
    by_cases hk : k = k'
    · subst hk
      rfl
    · simp [effect, hk]
  | insert m => exact find?_insert s m k
  | merge t => exact find?_merge
  | remove k' => exact find?_erase s k' k
  | reconcile previous removeUnused =>
    cases previous with
    | none => cases hk : s.find? k <;> exact hk
    | some previous =>
      cases hk : s.find? k with
      | some m => exact find?_reconcile_found hk
      | none => exact find?_reconcile_unused hk

/-- The keys that a change is about. -/
def Concerns (k : Message.Key) : Change → Prop
  | record k' _ => k = k'
  | insert m => k = m.key
  | merge t => t.contains k = true
  | remove k' => k = k'
  | reconcile _ _ => True

theorem effect_of_not_concerns {c : Change} (h : ¬ c.Concerns k) (m? : Option Message) :
    c.effect k m? = m? := by
  cases c with
  | record k' o => exact if_neg h
  | insert m => exact if_neg h
  | merge t =>
    have hnone : t.find? k = none :=
      contains_eq_false_iff.1 (Bool.eq_false_iff.2 h)
    simp [effect, hnone]
  | remove k' => exact if_neg h
  | reconcile previous removeUnused => exact absurd trivial h

end Change

/-! ## Sequences of changes -/

/-- The store behind some changes. -/
def changed (s : Store) (cs : List Change) : Store := cs.foldl Change.apply s

/-- Every key goes through the changes on its own. -/
theorem find?_changed (s : Store) (cs : List Change) (k : Message.Key) :
    (s.changed cs).find? k = cs.foldl (Change.effect k) (s.find? k) := by
  induction cs generalizing s with
  | nil => rfl
  | cons c cs ih =>
    rw [List.foldl_cons, ← Change.find?_apply]
    exact ih (c.apply s)

/-! ## What every store is like -/

/-- What stands before a message with a position has one. -/
theorem position_of_catalogOrder {a b : Message} (h : a.catalogOrder b = .lt)
    (hb : b.position ≠ .unordered) : a.position ≠ .unordered := by
  intro ha
  rcases Message.catalogOrder_eq_lt_iff.1 h with h | ⟨h, -⟩
  · rw [ha] at h
    cases hp : b.position with
    | «at» i =>
      rw [hp] at h
      cases h
    | unordered => exact hb hp
  · exact hb (h ▸ ha)

theorem occurrenceCount_eq (s : Store) :
    s.occurrenceCount = (s.toList.map fun m => m.occurrences.size).sum := by
  have hfold : ∀ (ms : List Message) (n : Nat),
      ms.foldl (fun n m => n + m.occurrences.size) n =
        n + (ms.map fun m => m.occurrences.size).sum := by
    intro ms
    induction ms with
    | nil => intro n; rfl
    | cons m ms ih =>
      intro n
      rw [List.foldl_cons, ih, List.map_cons, List.sum_cons, Nat.add_assoc]
  rw [occurrenceCount, hfold, Nat.zero_add]

/-- A record adds one message or none. -/
theorem size_recordNew (s : Store) (k : Message.Key) (o : Occurrence) :
    (s.recordNew k o).2.size = s.size + (s.recordNew k o).1.toNat := by
  have hinsert : (s.recordNew k o).2.size = (s.insert (recorded (k, o))).toList.length := by
    rw [recordNew_snd, record_eq_insert s (k, o)]
    rfl
  rw [hinsert]
  cases hk : s.find? k with
  | none =>
    have hperm := insert_perm (m := recorded (k, o)) hk
    rw [(s.recordNew_fst k o).2 hk, hperm.length_eq]
    rfl
  | some m =>
    have hold : (s.recordNew k o).1 = false := by
      rw [Bool.eq_false_iff, ne_eq, recordNew_fst, hk]
      simp
    have hthere : s.contains (recorded (k, o)).key = true := by
      show (s.find? k).isSome = true
      rw [hk]
      rfl
    rw [hold, toList_insert hthere, List.length_map]
    rfl

/-- What a store is like, whatever it has been through. -/
structure Coherent (s : Store) : Prop where
  nodup_keys : (s.toList.map Message.key).Nodup
  find? : ∀ k m, s.find? k = some m ↔ m ∈ s.toList ∧ m.key = k
  occurrences : ∀ m ∈ s.toList, m.occurrences.toList.Pairwise fun a b => compare a b = .lt
  /-- The catalog order lists every message once. -/
  nodup_sorted : s.sorted.Nodup
  mem_sorted : ∀ m, m ∈ s.sorted ↔ m ∈ s.toList
  increasing : s.sorted.Pairwise fun a b => a.catalogOrder b = .lt
  positioned_first :
    s.sorted.Pairwise fun a b => b.position ≠ .unordered → a.position ≠ .unordered
  count : s.occurrenceCount = (s.toList.map fun m => m.occurrences.size).sum
  new : ∀ k o, (s.recordNew k o).1 = true ↔ s.find? k = none
  grows : ∀ k o, (s.recordNew k o).2.size = s.size + (s.recordNew k o).1.toNat
  /-- A change of some keys leaves the others alone. -/
  frame : ∀ c k, ¬ Change.Concerns k c → (c.apply s).find? k = s.find? k

theorem coherent (s : Store) : s.Coherent where
  nodup_keys := s.nodup_keys
  find? _ _ := find?_eq_some_iff
  occurrences m _ := m.occurrences.increasing
  nodup_sorted := s.nodup_sorted_keys.of_map Message.key
  mem_sorted _ := Store.mem_sorted
  increasing := s.pairwise_sorted
  positioned_first := s.pairwise_sorted.imp position_of_catalogOrder
  count := s.occurrenceCount_eq
  new := s.recordNew_fst
  grows := s.size_recordNew
  frame c k h := by rw [c.find?_apply, c.effect_of_not_concerns h]

/-- Whatever has been done with a store, it is coherent, and further changes
    take each key through a history of its own. The order that keeps occurrences
    apart is total and never takes two of them for one, not even if their paths
    differ in case only. -/
theorem coherent_run (ops : List Operation) :
    (run ops).Coherent ∧
    (∀ cs k, ((run ops).changed cs).find? k = cs.foldl (Change.effect k) ((run ops).find? k)) ∧
    (∀ a b : Occurrence, compare b a = (compare a b).swap) ∧
    (∀ a b c : Occurrence, (compare a b).isLE → (compare b c).isLE → (compare a c).isLE) ∧
    ∀ a b : Occurrence, compare a b = .eq ↔ a.path = b.path ∧ a.line = b.line := by
  refine ⟨(run ops).coherent, (run ops).find?_changed, fun a b => ?_, fun a b c => ?_, ?_⟩
  · exact Std.OrientedCmp.eq_swap
  · exact Std.TransCmp.isLE_trans
  · rintro ⟨p, i⟩ ⟨q, j⟩
    rw [Std.LawfulEqCmp.compare_eq_iff_eq, Occurrence.mk.injEq]

-- paths that differ in case are two occurrences, next to each other
example :
    ((run [.change (.record ⟨"a", none⟩ ⟨"B.java", 2⟩), .change (.record ⟨"a", none⟩ ⟨"b.java", 1⟩),
      .change (.record ⟨"a", none⟩ ⟨"b.java", 2⟩)]).find? ⟨"a", none⟩).map
        (fun m => m.occurrences.toList) =
      some [⟨"b.java", 1⟩, ⟨"B.java", 2⟩, ⟨"b.java", 2⟩] := by
  decide +kernel

end Store

end MessageHarvest
