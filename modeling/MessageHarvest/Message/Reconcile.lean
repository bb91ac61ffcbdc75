import MessageHarvest.Message.Store

/-! # Reconciling a fresh store with the previous catalog

    A message found now keeps the position it had, with the occurrences found
    now; one that is new has no position. A message that only the previous
    catalog has is unused: it is kept as it was, or dropped. -/

namespace MessageHarvest

/-- What a reconciliation did. -/
structure Reconciliation where
  /-- Messages that the previous catalog did not have. -/
  added : Nat := 0
  /-- Messages that the previous catalog had. -/
  matched : Nat := 0
  /-- The singulars of the unused messages that were kept, in catalog order. -/
  retained : List String := []
  /-- The unused messages that were dropped. -/
  removed : Nat := 0
  deriving DecidableEq, Repr, Inhabited

/-- A reconciliation under way. -/
structure Reconciling where
  /-- The messages that are settled. -/
  result : Store
  /-- The messages of the previous catalog that were not met so far. -/
  previous : Store
  /-- What was done so far. -/
  summary : Reconciliation

namespace Reconciling

/-- A message found now takes its position from the previous store, where it
    does not remain. -/
def find (r : Reconciling) (m : Message) : Reconciling :=
  match r.previous.find? m.key with
  | some old =>
    { result := r.result.insert { m with position := old.position }
      previous := r.previous.erase m.key
      summary := { r.summary with matched := r.summary.matched + 1 } }
  | none =>
    { result := r.result.insert { m with position := .unordered }
      previous := r.previous
      summary := { r.summary with added := r.summary.added + 1 } }

/-- A message that was not found is dropped, or kept as it was. -/
def settle (removeUnused : Bool) : Store × Reconciliation → Message → Store × Reconciliation
  | (result, summary), old =>
    if removeUnused then (result, { summary with removed := summary.removed + 1 })
    else
      (result.insert old,
        { summary with retained := summary.retained ++ [old.key.singular] })

end Reconciling

/-- Reconciles a fresh store with the previous one, if there is one. -/
def Store.reconcile (fresh : Store) (previous : Option Store) (removeUnused : Bool) :
    Store × Reconciliation :=
  match previous with
  | none => (fresh, { added := fresh.size })
  | some previous =>
    let found := fresh.toList.foldl Reconciling.find ⟨.empty, previous, {}⟩
    found.previous.sorted.foldl (Reconciling.settle removeUnused) (found.result, found.summary)

end MessageHarvest
