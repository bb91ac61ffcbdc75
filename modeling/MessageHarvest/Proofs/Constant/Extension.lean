import MessageHarvest.Proofs.Constant.Evaluation
import MessageHarvest.Proofs.Outcome

/-! # Evaluators that do not fail, and evaluators with more handlers

    An evaluator is a table of handlers that call back into the evaluator, so a
    law of evaluation comes from a law of each handler and an induction over
    the levels.

    * `Compatible`: a relation between outcomes that the ways in which handlers
      put outcomes together respect. The standard handlers respect every such
      relation (`respects_standard`).
    * Equality is one, so these handlers depend on nothing but the parts of
      their expression, and as many levels as it has are enough
      (`Local.evaluate_eq`).
    * Not failing is one, so the standard evaluator never fails, and the
      integers that it gives are in the range of their width (`run_safe`).
    * Keeping a value is one, so handlers that are added for other kinds change
      no value (`run_keeps`, `run_keeps_fixpoint`). -/

namespace MessageHarvest

/-! ## Ranges -/

/-- A number is in the signed range of a width. -/
def IntWidth.Holds (w : IntWidth) (n : Int) : Prop :=
  -2 ^ (w.bits - 1) ≤ n ∧ n < 2 ^ (w.bits - 1)

/-- The 64 bits in which operators read an integer hold a number of its width. -/
def Value.InRange : Value → Prop
  | .int v => v.width.Holds v.toInt64.toInt
  | _ => True

theorem IntValue.holds_toInt (v : IntValue) : v.width.Holds v.toInt := by
  cases v with
  | byte v => exact ⟨Int8.le_toInt v, Int8.toInt_lt v⟩
  | short v => exact ⟨Int16.le_toInt v, Int16.toInt_lt v⟩
  | int v => exact ⟨Int32.le_toInt v, Int32.toInt_lt v⟩
  | long v => exact ⟨Int64.le_toInt v, Int64.toInt_lt v⟩

theorem Value.inRange (v : Value) : v.InRange := by
  cases v with
  | int v =>
    show v.width.Holds v.toInt64.toInt
    rw [IntValue.toInt_toInt64]
    exact v.holds_toInt
  | _ => trivial

/-! ## Relations between outcomes -/

namespace Folded

/-- An evaluation has not failed, and its value, if it has one, is in range. -/
def Safe (r : Folded) : Prop := ∃ o, r = .ok o ∧ ∀ v, o = some v → v.InRange

/-- The second outcome has the value that the first one has, if it has one. -/
def Keeps (r r' : Folded) : Prop := ∀ v, r = .ok (some v) → r' = .ok (some v)

/-- A relation that putting outcomes together respects. -/
structure Compatible (R : Folded → Folded → Prop) : Prop where
  ok : ∀ o, R (.ok o) (.ok o)
  andThen : ∀ {r r' f f'}, R r r' → (∀ v, R (f v) (f' v)) → R (r.andThen f) (r'.andThen f')

theorem Safe.ok (o : Option Value) : Safe (.ok o) := ⟨o, rfl, fun v _ => v.inRange⟩

theorem Safe.andThen {r : Folded} {f : Value → Folded} (hr : r.Safe) (hf : ∀ v, (f v).Safe) :
    (r.andThen f).Safe := by
  obtain ⟨o, rfl, -⟩ := hr
  cases o with
  | none => exact .ok none
  | some v => exact hf v

theorem compatible_safe : Compatible fun r _ => r.Safe := ⟨.ok, .andThen⟩

/-- A chain has a value if its start has one and it goes on to one from there. -/
theorem andThen_eq_some_iff {r : Folded} {f : Value → Folded} {v : Value} :
    r.andThen f = .ok (some v) ↔ ∃ x, r = .ok (some x) ∧ f x = .ok (some v) := by
  unfold andThen
  rw [bind_eq_ok_iff]
  constructor
  · rintro ⟨o, ho, h⟩
    cases o with
    | none => cases h
    | some x => exact ⟨x, ho, h⟩
  · rintro ⟨x, hx, h⟩
    exact ⟨some x, hx, h⟩

theorem compatible_keeps : Compatible Keeps where
  ok _ _ h := h
  andThen := by
    intro r r' f f' hr hf v h
    obtain ⟨x, hx, h⟩ := andThen_eq_some_iff.1 h
    exact andThen_eq_some_iff.2 ⟨x, hr x hx, hf x v h⟩

theorem compatible_eq : Compatible Eq where
  ok _ := rfl
  andThen := by
    intro r r' f f' hr hf
    rw [hr, funext hf]

end Folded

/-! ## The standard handlers -/

/-- The handler gives related outcomes if the evaluations of what has fewer
    levels do. -/
def Handler.Respects (h : Handler) (R : Folded → Folded → Prop) : Prop :=
  ∀ eval eval' e, (∀ a : Expr, a.depth < e.depth → R (eval a) (eval' a)) → R (h eval e) (h eval' e)

namespace Folded.Compatible

variable {R : Folded → Folded → Prop} (hR : Compatible R)

include hR

/-- What computes a meaning does not fail. -/
theorem of_folds {r : Folded} {P : Meaning → Prop} (h : Folds r P) : R r r := by
  obtain ⟨o, rfl, -⟩ := h
  exact hR.ok o

theorem literal : Handler.literal.Respects R := by
  intro eval eval' e _
  cases e with
  | literal line l => exact hR.ok l.value?
  | _ => exact hR.ok none

theorem binary : Handler.binary.Respects R := by
  intro eval eval' e heval
  cases e with
  | binary line op a b =>
    rw [Expr.depth] at heval
    show R ((eval a).andThen fun x => (eval b).andThen (Operator.applyBinary op x))
      ((eval' a).andThen fun x => (eval' b).andThen (Operator.applyBinary op x))
    apply hR.andThen (heval a (by omega))
    intro x
    apply hR.andThen (heval b (by omega))
    intro y
    exact hR.of_folds (applyBinary_spec op x y)
  | _ => exact hR.ok none

theorem unary : Handler.unary.Respects R := by
  intro eval eval' e heval
  cases e with
  | unary line op a =>
    rw [Expr.depth] at heval
    show R ((eval a).andThen (Operator.applyUnary op)) ((eval' a).andThen (Operator.applyUnary op))
    apply hR.andThen (heval a (by omega))
    intro x
    exact hR.of_folds (applyUnary_spec op x)
  | _ => exact hR.ok none

theorem conditional : Handler.conditional.Respects R := by
  intro eval eval' e heval
  cases e with
  | conditional line c a b =>
    rw [Expr.depth] at heval
    rw [conditional_eq, conditional_eq]
    apply hR.andThen (heval c (by omega))
    intro x
    -- both conditions have the value `x`, so the same branch is taken
    unfold branch
    split
    · exact heval a (by omega)
    · exact heval b (by omega)
    · exact hR.ok none
  | _ => exact hR.ok none

theorem cast : Handler.cast.Respects R := by
  intro eval eval' e heval
  cases e with
  | cast line t a =>
    rw [Expr.depth] at heval
    show R ((eval a).andThen fun x => .ok (Operator.applyCast t x))
      ((eval' a).andThen fun x => .ok (Operator.applyCast t x))
    apply hR.andThen (heval a (by omega))
    intro x
    exact hR.ok (Operator.applyCast t x)
  | _ => exact hR.ok none

end Folded.Compatible

namespace Evaluator

theorem respects_standard {R : Folded → Folded → Prop} (hR : Folded.Compatible R)
    {k : Expr.Kind} {h : Handler} (hk : standard.handler k = some h) : h.Respects R := by
  cases k with
  | literal => cases hk; exact hR.literal
  | binary => cases hk; exact hR.binary
  | unary => cases hk; exact hR.unary
  | conditional => cases hk; exact hR.conditional
  | cast => cases hk; exact hR.cast
  | _ => cases hk

/-- One level of evaluation: the handler of its kind gets the expression. -/
def dispatch (E : Evaluator) (eval : Expr → Folded) (e : Expr) : Folded :=
  match E.handler e.kind with
  | some h => h eval e
  | none => .ok none

theorem dispatch_of_some {E : Evaluator} {e : Expr} {h : Handler} (hk : E.handler e.kind = some h)
    (eval : Expr → Folded) : E.dispatch eval e = h eval e := by
  simp only [dispatch, hk]

theorem dispatch_of_none {E : Evaluator} {e : Expr} (hk : E.handler e.kind = none)
    (eval : Expr → Folded) : E.dispatch eval e = .ok none := by
  simp only [dispatch, hk]

/-! ## Levels -/

/-- The handlers evaluate nothing but what has fewer levels than their expression. -/
def Local (E : Evaluator) : Prop := ∀ k h, E.handler k = some h → h.Respects Eq

theorem local_standard : standard.Local := fun _ _ hk =>
  respects_standard Folded.compatible_eq hk

theorem Local.register {E : Evaluator} (hE : E.Local) (k : Expr.Kind) {h : Handler}
    (hh : h.Respects Eq) : (E.register k h).Local := by
  intro k' h' hk'
  by_cases hkk : k' = k
  · subst hkk
    rw [handler_register_self] at hk'
    cases hk'
    exact hh
  · rw [handler_register_ne E h hkk] at hk'
    exact hE k' h' hk'

theorem Local.dispatch_congr {E : Evaluator} (hE : E.Local) {eval eval' : Expr → Folded} {e : Expr}
    (heval : ∀ a : Expr, a.depth < e.depth → eval a = eval' a) :
    E.dispatch eval e = E.dispatch eval' e := by
  cases hk : E.handler e.kind with
  | none => rw [dispatch_of_none hk, dispatch_of_none hk]
  | some h =>
    rw [dispatch_of_some hk, dispatch_of_some hk]
    exact hE _ h hk eval eval' e heval

/-- As many levels as the expression has are enough. -/
theorem Local.run_eq_dispatch {E : Evaluator} (hE : E.Local) {n : Nat} {e : Expr}
    (h : e.depth ≤ n + 1) : E.run (n + 1) e = E.dispatch E.evaluate e := by
  induction n using Nat.strongRecOn generalizing e with
  | ind n ih =>
    apply hE.dispatch_congr
    intro a ha
    have hpos := a.depth_pos
    obtain ⟨d, hd⟩ : ∃ d, a.depth = d + 1 := ⟨a.depth - 1, by omega⟩
    obtain ⟨m, rfl⟩ : ∃ m, n = m + 1 := ⟨n - 1, by omega⟩
    -- to `m + 1` levels and to its own number of them, `a` has one and the same outcome
    unfold evaluate
    rw [hd, ih m (by omega) (by omega), ih d (by omega) (by omega)]

/-- Evaluation goes by the handlers, which call back into it. -/
theorem Local.evaluate_eq {E : Evaluator} (hE : E.Local) (e : Expr) :
    E.evaluate e = E.dispatch E.evaluate e := by
  have hpos := e.depth_pos
  obtain ⟨d, hd⟩ : ∃ d, e.depth = d + 1 := ⟨e.depth - 1, by omega⟩
  rw [evaluate, hd]
  exact hE.run_eq_dispatch (by omega)

/-! ## The standard evaluator -/

theorem dispatch_safe {eval : Expr → Folded} (heval : ∀ e, (eval e).Safe) (e : Expr) :
    (standard.dispatch eval e).Safe := by
  cases hk : standard.handler e.kind with
  | none =>
    rw [dispatch_of_none hk]
    exact .ok none
  | some h =>
    rw [dispatch_of_some hk]
    exact respects_standard Folded.compatible_safe hk eval eval e fun a _ => heval a

/-- The standard evaluator does not fail, to any number of levels. -/
theorem run_safe (n : Nat) (e : Expr) : (standard.run n e).Safe := by
  induction n generalizing e with
  | zero => exact .ok none
  | succ n ih => exact dispatch_safe ih e

/-! ## More handlers -/

/-- The standard evaluator with further handlers, registered one after the other. -/
def extended (hs : List (Expr.Kind × Handler)) : Evaluator :=
  hs.foldl (fun E p => E.register p.1 p.2) standard

theorem handler_foldl_register {hs : List (Expr.Kind × Handler)} {k : Expr.Kind}
    (hne : ∀ p ∈ hs, p.1 ≠ k) (E : Evaluator) :
    (hs.foldl (fun E p => E.register p.1 p.2) E).handler k = E.handler k := by
  induction hs generalizing E with
  | nil => rfl
  | cons p hs ih =>
    obtain ⟨hp, hne⟩ := List.forall_mem_cons.1 hne
    rw [List.foldl_cons, ih hne, handler_register_ne E p.2 hp.symm]

section Extended

variable {hs : List (Expr.Kind × Handler)} (hfree : ∀ p ∈ hs, standard.handler p.1 = none)

include hfree

/-- Handlers for kinds that have none leave the standard ones as they are. -/
theorem handler_extended {k : Expr.Kind} {h : Handler} (hk : standard.handler k = some h) :
    (extended hs).handler k = some h := by
  have hne : ∀ p ∈ hs, p.1 ≠ k := by
    intro p hp heq
    have hnone := hfree p hp
    rw [heq, hk] at hnone
    cases hnone
  exact (handler_foldl_register hne standard).trans hk

/-- A level keeps the values that the levels below keep: where the standard
    evaluator has a handler it is the same one, and elsewhere it has no value. -/
theorem dispatch_keeps {eval eval' : Expr → Folded} (heval : ∀ e, (eval e).Keeps (eval' e))
    (e : Expr) : (standard.dispatch eval e).Keeps ((extended hs).dispatch eval' e) := by
  cases hk : standard.handler e.kind with
  | none =>
    rw [dispatch_of_none hk]
    intro v hv
    cases hv
  | some h =>
    rw [dispatch_of_some hk, dispatch_of_some (handler_extended hfree hk)]
    exact respects_standard Folded.compatible_keeps hk eval eval' e fun a _ => heval a

theorem run_keeps (n : Nat) (e : Expr) : (standard.run n e).Keeps ((extended hs).run n e) := by
  induction n generalizing e with
  | zero =>
    intro v hv
    cases hv
  | succ n ih => exact dispatch_keeps hfree ih e

/-- Any evaluation that goes by the handlers, however deep it descends, keeps
    the values of the standard one. -/
theorem run_keeps_fixpoint {eval : Expr → Folded}
    (heval : ∀ e, eval e = (extended hs).dispatch eval e) (n : Nat) (e : Expr) :
    (standard.run n e).Keeps (eval e) := by
  induction n generalizing e with
  | zero =>
    intro v hv
    cases hv
  | succ n ih =>
    rw [heval e]
    exact dispatch_keeps hfree ih e

end Extended

end Evaluator

end MessageHarvest
