import MessageHarvest.Sorted
import MessageHarvest.Text.Case

/-! # Messages

    A message is identified by its singular and plural text: the same singular
    with and without a plural are two messages. It knows where it occurs and
    where it stood in the catalog that was read before.

    Occurrences are ordered by path without regard to case, then by line; the
    exact path only decides between paths that differ in case, so that equal
    in order means equal. Messages stand in a catalog by position, then by
    key. -/

namespace MessageHarvest

/-! ## Occurrences -/

/-- A place in source code. -/
structure Occurrence where
  /-- Path relative to the project root, with `/` between its parts. -/
  path : String
  /-- Counted from one. -/
  line : Nat
  deriving DecidableEq, Repr, Inhabited

namespace Occurrence

/-- The path without regard to case. -/
def folded (o : Occurrence) : List Char := Text.lower o.path.toList

/-- By path without regard to case, then by line, then by path. -/
instance : Ord Occurrence where
  compare := compareLex (compareOn folded) (compareLex (compareOn line) (compareOn path))

instance : Std.TransOrd Occurrence :=
  inferInstanceAs (Std.TransCmp (compareLex (compareOn folded)
    (compareLex (compareOn line) (compareOn path))))

theorem compare_eq (a b : Occurrence) :
    compare a b = (compare a.folded b.folded).then
      ((compare a.line b.line).then (compare a.path b.path)) := rfl

theorem eq_of_compare_eq {a b : Occurrence} (h : compare a b = .eq) : a = b := by
  rw [compare_eq, Ordering.then_eq_eq, Ordering.then_eq_eq] at h
  have hl : a.line = b.line := Std.LawfulEqCmp.eq_of_compare h.2.1
  have hp : a.path = b.path := Std.LawfulEqCmp.eq_of_compare h.2.2
  cases a; cases b; simp_all

instance : Std.LawfulEqOrd Occurrence where
  eq_of_compare := eq_of_compare_eq
  compare_self := by intro a; exact Std.ReflCmp.compare_self

/-- The occurrence as a catalog refers to it. -/
def reference (o : Occurrence) : List Char := o.path.toList ++ ':' :: (toString o.line).toList

end Occurrence

/-- A sorted set of occurrences. -/
abbrev Occurrences := Sorted Occurrence (fun o => o)

/-! ## Keys and positions -/

/-- What identifies a message. -/
structure Message.Key where
  singular : String
  plural : Option String := none
  deriving DecidableEq, Repr, Inhabited

namespace Message.Key

/-- By singular; without a plural first, then by plural. -/
instance : Ord Key where
  compare := compareLex (compareOn singular) (compareOn plural)

instance : Std.TransOrd Key :=
  inferInstanceAs (Std.TransCmp (compareLex (compareOn singular) (compareOn plural)))

theorem compare_eq (a b : Key) :
    compare a b = (compare a.singular b.singular).then (compare a.plural b.plural) := rfl

theorem eq_of_compare_eq {a b : Key} (h : compare a b = .eq) : a = b := by
  rw [compare_eq, Ordering.then_eq_eq] at h
  have hs : a.singular = b.singular := Std.LawfulEqCmp.eq_of_compare h.1
  have hp : a.plural = b.plural := Std.LawfulEqCmp.eq_of_compare h.2
  cases a; cases b; simp_all

instance : Std.LawfulEqOrd Key where
  eq_of_compare := eq_of_compare_eq
  compare_self := by intro a; exact Std.ReflCmp.compare_self

end Message.Key

/-- Where a message stood in the catalog that was read before. -/
inductive Message.Position where
  | at (index : Nat)
  /-- In no catalog yet. -/
  | unordered
  deriving DecidableEq, Repr, Inhabited

namespace Message.Position

/-- By index; messages in no catalog come last. -/
def order : Position → Position → Ordering
  | .at i, .at j => compare i j
  | .at _, .unordered => .lt
  | .unordered, .at _ => .gt
  | .unordered, .unordered => .eq

instance : Ord Position := ⟨order⟩

end Message.Position

/-! ## Messages -/

/-- A translatable message. -/
structure Message where
  key : Message.Key
  position : Message.Position := .unordered
  occurrences : Occurrences := .empty
  deriving DecidableEq, Inhabited

namespace Message

/-- The order of messages in a catalog. -/
def catalogOrder (a b : Message) : Ordering :=
  (compare a.position b.position).then (compare a.key b.key)

/-- Adds an occurrence. -/
def occurs (o : Occurrence) (m : Message) : Message :=
  { m with occurrences := m.occurrences.insert o }

/-- Takes the occurrences of another message, and its position if this one
    has none. -/
def absorb (n m : Message) : Message :=
  { m with
    occurrences := m.occurrences.union n.occurrences
    position := if m.position = .unordered then n.position else m.position }

@[simp] theorem key_occurs (o : Occurrence) (m : Message) : (m.occurs o).key = m.key := rfl

@[simp] theorem key_absorb (n m : Message) : (absorb n m).key = m.key := rfl

end Message

end MessageHarvest
