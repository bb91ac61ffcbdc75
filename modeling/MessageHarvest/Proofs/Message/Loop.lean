import MessageHarvest.Message.Reconcile
import MessageHarvest.Proofs.Message.Store

/-! # The loop of a reconciliation

    A reconciliation takes each message that it meets out of the previous
    store. The keys that it goes through are distinct, so no message is missed
    because of another one, and what is left over are the messages that were
    not found.

    * `foldl_find`: what the loop over the messages found now leaves behind.
    * `foldl_settle`: what becomes of the messages that are left over.
    * `reconcile_some`: the store and the summary without the loop. -/

namespace MessageHarvest

namespace Store

variable {fresh previous : Store}

/-- The position of a key in a store. -/
def positionOf (s : Store) (k : Message.Key) : Message.Position :=
  match s.find? k with
  | some m => m.position
  | none => .unordered

theorem positionOf_of_mem {m : Message} (h : m ∈ previous.toList) :
    previous.positionOf m.key = m.position := by
  rw [positionOf, find?_eq_some_iff.2 ⟨h, rfl⟩]

theorem positionOf_of_not_contains {k : Message.Key} (h : previous.contains k = false) :
    previous.positionOf k = .unordered := by
  rw [positionOf, contains_eq_false_iff.1 h]

/-- The messages of a previous store that a fresh one does not have, in catalog order. -/
def unused (previous fresh : Store) : List Message :=
  previous.sorted.filter fun m => !fresh.contains m.key

theorem mem_unused {m : Message} :
    m ∈ previous.unused fresh ↔ m ∈ previous.toList ∧ fresh.contains m.key = false := by
  simp [unused, mem_sorted]

/-- The messages found now with the positions they had, and those that are kept. -/
def parts (fresh previous : Store) (removeUnused : Bool) : List Message :=
  (fresh.toList.map fun m => { m with position := previous.positionOf m.key }) ++
    if removeUnused then [] else previous.unused fresh

/-- What is left over when all messages found now are taken out. -/
theorem sorted_foldl_erase (fresh previous : Store) :
    (fresh.toList.foldl (fun s m => s.erase m.key) previous).sorted = previous.unused fresh := by
  refine sorted_eq_of_perm ?_ (previous.pairwise_sorted.filter _)
  refine (List.perm_ext_iff_of_nodup ?_ (nodup_keys _).of_map).2 fun m => ?_
  · exact (previous.nodup_sorted_keys.of_map).filter _
  · rw [mem_foldl_erase, ← contains_iff, mem_unused, Bool.not_eq_true]

end Store

namespace Reconciling

open Store

/-- One message found now, whether the previous store has it or not. -/
theorem find_eq (r : Reconciling) (m : Message) :
    r.find m =
      { result := r.result.insert { m with position := r.previous.positionOf m.key }
        previous := r.previous.erase m.key
        summary := { r.summary with
          added := r.summary.added + if r.previous.contains m.key then 0 else 1
          matched := r.summary.matched + if r.previous.contains m.key then 1 else 0 } } := by
  cases h : r.previous.find? m.key with
  | some old =>
    have hc : r.previous.contains m.key = true := by
      obtain ⟨hold, hk⟩ := find?_eq_some_iff.1 h
      exact hk ▸ contains_of_mem hold
    simp [find, positionOf, h, hc]
  | none =>
    have hc : r.previous.contains m.key = false := contains_eq_false_iff.2 h
    simp [find, positionOf, h, hc, erase_of_not_contains hc]

/-- All messages found now. Their keys are distinct, so what is taken out for
    one of them is not missed by another. -/
theorem foldl_find {ms : List Message} (hms : (ms.map Message.key).Nodup) (r : Reconciling) :
    ms.foldl find r =
      { result := (ms.map fun m => { m with position := r.previous.positionOf m.key }).foldl
          (fun s m => s.insert m) r.result
        previous := ms.foldl (fun s m => s.erase m.key) r.previous
        summary := { r.summary with
          added := r.summary.added + (ms.filter fun m => !r.previous.contains m.key).length
          matched := r.summary.matched +
            (ms.filter fun m => r.previous.contains m.key).length } } := by
  induction ms generalizing r with
  | nil => rfl
  | cons m ms ih =>
    obtain ⟨hm, hms⟩ := List.nodup_cons.1 hms
    have hne : ∀ n ∈ ms, n.key ≠ m.key := fun n hn e => hm (e ▸ List.mem_map_of_mem hn)
    have hfind : ∀ n ∈ ms, (r.previous.erase m.key).find? n.key = r.previous.find? n.key :=
      fun n hn => (find?_erase r.previous m.key n.key).trans (if_neg (hne n hn))
    have hcontains : ∀ n ∈ ms,
        (r.previous.erase m.key).contains n.key = r.previous.contains n.key :=
      fun n hn => congrArg Option.isSome (hfind n hn)
    have hmap : (ms.map fun n =>
        { n with position := (r.previous.erase m.key).positionOf n.key : Message }) =
        ms.map fun n => { n with position := r.previous.positionOf n.key } :=
      List.map_congr_left fun n hn => by rw [positionOf, hfind n hn, positionOf]
    have hmatched : (ms.filter fun n => (r.previous.erase m.key).contains n.key) =
        ms.filter fun n => r.previous.contains n.key := List.filter_congr hcontains
    have hadded : (ms.filter fun n => !(r.previous.erase m.key).contains n.key) =
        ms.filter fun n => !r.previous.contains n.key :=
      List.filter_congr fun n hn => congrArg _ (hcontains n hn)
    rw [List.foldl_cons, find_eq, ih hms]
    dsimp only
    rw [hmap, hmatched, hadded]
    cases hc : r.previous.contains m.key <;> simp [hc, Nat.add_assoc, Nat.add_comm 1]

/-- The messages that were not found, all dropped or all kept. -/
theorem foldl_settle (removeUnused : Bool) (ms : List Message) (s : Store) (r : Reconciliation) :
    ms.foldl (settle removeUnused) (s, r) =
      ((if removeUnused then [] else ms).foldl (fun s m => s.insert m) s,
        { r with
          retained := r.retained ++
            (if removeUnused then [] else ms).map fun m => m.key.singular
          removed := r.removed + if removeUnused then ms.length else 0 }) := by
  induction ms generalizing s r with
  | nil => cases removeUnused <;> simp
  | cons m ms ih =>
    rw [List.foldl_cons]
    cases removeUnused with
    | true => simp [settle, ih, Nat.add_assoc, Nat.add_comm 1]
    | false => simp [settle, ih]

end Reconciling

namespace Store

/-- The loop puts a store together of the messages found now and of those that
    are kept, and counts them as it goes. -/
theorem reconcile_some (fresh previous : Store) (removeUnused : Bool) :
    fresh.reconcile (some previous) removeUnused =
      (ofList (parts fresh previous removeUnused),
        { added := (fresh.toList.filter fun m => !previous.contains m.key).length
          matched := (fresh.toList.filter fun m => previous.contains m.key).length
          retained := (if removeUnused then [] else previous.unused fresh).map
            fun m => m.key.singular
          removed := if removeUnused then (previous.unused fresh).length else 0 }) := by
  unfold reconcile
  dsimp only
  rw [Reconciling.foldl_find fresh.nodup_keys, sorted_foldl_erase,
    Reconciling.foldl_settle, ofList, parts, List.foldl_append]
  simp

end Store

end MessageHarvest
