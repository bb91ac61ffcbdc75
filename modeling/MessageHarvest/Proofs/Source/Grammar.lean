import Mathlib.Logic.Relation
import MessageHarvest.Source.Grammar

/-! # What a grammar can yield

    `Grammar.Yields I g acc ts` says which trees `ts` a grammar may build
    behind the trees `acc`, whatever the tokens are, if its rules build what
    `I` says. It forgets lookahead, the order of choices and how far a
    repetition goes, so it allows more than a reading gives; but it has one
    clause for each form of a grammar and can be unfolded on a concrete one.

    * `yields_of_run`: what is read is among what a grammar can yield.
    * `expected_of_read`: if every rule keeps to `I`, so does every reading. -/

namespace MessageHarvest.Grammar

variable {R : Type} {I : R → List Tree → Prop} {limit : Nat} {call : R → List Token → Outcome}

/-- The trees that a grammar may build behind some trees, where `I` says what
    the rules build. -/
def Yields (I : R → List Tree → Prop) : Grammar R → List Tree → List Tree → Prop
  | symbol _, _, ts | keyword _, _, ts | word _, _, ts | token _, _, ts | angle, _, ts =>
    ∃ t, ts = [.leaf none t]
  | empty, _, ts | finish, _, ts | adjacent, _, ts | ahead _, _, ts | beforeIs _, _, ts => ts = []
  -- what can always be read is never ruled out
  | not g, _, ts => ts = [] ∧ g ≠ empty
  | seq a b, acc, ts => ∃ xs ys, a.Yields I acc xs ∧ b.Yields I acc ys ∧ ts = xs ++ ys
  | alt a b, acc, ts => a.Yields I acc ts ∨ b.Yields I acc ts
  | star g, acc, ts =>
    ∃ xss : List (List Tree), (∀ xs ∈ xss, g.Yields I acc xs) ∧ ts = xss.flatten
  | node k g, acc, ts => ∃ cs, g.Yields I acc cs ∧ ts = [.node none k cs]
  | role r g, acc, ts => ∃ xs, g.Yields I acc xs ∧ ts = xs.map (Tree.withRole r)
  | given a b, acc, ts => ∃ xs, a.Yields I acc xs ∧ b.Yields I xs ts
  | chain base step, acc, ts =>
    ∃ xs, base.Yields I acc xs ∧ Relation.ReflTransGen (fun a b => step.Yields I a b) xs ts
  | before, acc, ts => ts = acc
  | rule r, _, ts => I r ts

/-! ## Readings -/

theorem yields_of_take {p : Token → Bool} {toks : List Token} {q : Reading}
    (h : take p toks = .ok q) : ∃ t, q.trees = [.leaf none t] := by
  unfold take at h
  split at h
  · cases h
  · next t ts =>
    split at h
    · cases h
      exact ⟨t, rfl⟩
    · cases h

theorem trees_of_look {p : Token → Bool} {toks : List Token} {q : Reading}
    (h : look p toks = .ok q) : q.trees = [] := by
  unfold look at h
  split at h
  · cases h
  · split at h
    · cases h
      rfl
    · cases h

theorem yields_of_takeAngle {toks : List Token} {q : Reading} (h : takeAngle toks = .ok q) :
    ∃ t, q.trees = [.leaf none t] := by
  unfold takeAngle at h
  split at h
  · cases h
  · split at h
    · cases h
      exact ⟨_, rfl⟩
    · cases h
      exact ⟨_, rfl⟩
    · cases h

theorem map_eq_ok {f : Reading → Reading} {x : Outcome} {q : Reading} (h : x.map f = .ok q) :
    ∃ r, x = .ok r ∧ q = f r := by
  cases x with
  | error e => cases h
  | ok r =>
    cases h
    exact ⟨r, rfl, rfl⟩

/-- A chain goes from one reading to the next. -/
theorem reflTransGen_of_chainFrom {step : List Tree → List Token → Outcome}
    {rel : List Tree → List Tree → Prop}
    (hstep : ∀ acc toks q, step acc toks = .ok q → rel acc q.trees) (n : Nat)
    (acc : List Tree) (toks : List Token) (far : Nat) :
    Relation.ReflTransGen rel acc (chainFrom step n acc toks far).trees := by
  induction n generalizing acc toks far with
  | zero => exact .refl
  | succ n ih =>
    unfold chainFrom
    split
    · exact .refl
    · next r hr =>
      split
      · exact .head (hstep acc toks r hr) (ih r.trees r.rest _)
      · exact .refl

/-- What a repetition has read comes in pieces. -/
theorem exists_flatten_of_reflTransGen {P : List Tree → Prop} {xs ts : List Tree}
    (h : Relation.ReflTransGen (fun a b => ∃ ys, P ys ∧ b = a ++ ys) xs ts) :
    ∃ yss : List (List Tree), (∀ ys ∈ yss, P ys) ∧ ts = xs ++ yss.flatten := by
  induction h with
  | refl => exact ⟨[], by simp, by simp⟩
  | tail _ hlast ih =>
    obtain ⟨yss, hyss, rfl⟩ := ih
    obtain ⟨ys, hys, rfl⟩ := hlast
    refine ⟨yss ++ [ys], ?_, by simp⟩
    intro zs hzs
    rcases List.mem_append.1 hzs with hzs | hzs
    · exact hyss zs hzs
    · rw [List.mem_singleton.1 hzs]
      exact hys

/-- What is read is among what a grammar can yield. -/
theorem yields_of_run (hcall : ∀ r toks q, call r toks = .ok q → I r q.trees) (g : Grammar R)
    {acc : List Tree} {toks : List Token} {q : Reading}
    (h : g.run limit call acc toks = .ok q) : g.Yields I acc q.trees := by
  induction g generalizing acc toks q with
  | symbol | keyword | word | token => exact yields_of_take h
  | angle => exact yields_of_takeAngle h
  | finish | adjacent | ahead => exact trees_of_look h
  | empty =>
    cases h
    rfl
  | not g ih =>
    unfold run at h
    split at h
    · next e he =>
      cases h
      refine ⟨rfl, ?_⟩
      rintro rfl
      cases he
    · cases h
  | seq a b iha ihb =>
    unfold run at h
    split at h
    · cases h
    · next r hr =>
      split at h
      · cases h
      · next p hp =>
        cases h
        exact ⟨r.trees, p.trees, iha hr, ihb hp, rfl⟩
  | alt a b iha ihb =>
    unfold run at h
    split at h
    · next r hr =>
      cases h
      exact .inl (iha hr)
    · split at h
      · next r hr =>
        cases h
        have hyields : b.Yields I acc r.trees := ihb hr
        exact .inr hyields
      · cases h
  | star g ih =>
    cases h
    have hpieces : Relation.ReflTransGen (fun a b => ∃ ys, g.Yields I acc ys ∧ b = a ++ ys) []
        (chainFrom (fun read ts => (g.run limit call acc ts).map fun r =>
          { r with trees := read ++ r.trees }) limit [] toks 0).trees := by
      refine reflTransGen_of_chainFrom (fun read ts q hq => ?_) limit [] toks 0
      obtain ⟨r, hr, rfl⟩ := map_eq_ok hq
      exact ⟨r.trees, ih hr, rfl⟩
    exact exists_flatten_of_reflTransGen hpieces
  | node k g ih =>
    obtain ⟨r, hr, rfl⟩ := map_eq_ok h
    exact ⟨r.trees, ih hr, rfl⟩
  | role x g ih =>
    obtain ⟨r, hr, rfl⟩ := map_eq_ok h
    exact ⟨r.trees, ih hr, rfl⟩
  | given a b iha ihb =>
    unfold run at h
    split at h
    · cases h
    · next r hr =>
      split at h
      · cases h
      · next p hp =>
        cases h
        have hyields : b.Yields I r.trees p.trees := ihb hp
        exact ⟨r.trees, iha hr, hyields⟩
  | chain base step ihb ihs =>
    unfold run at h
    split at h
    · cases h
    · next r hr =>
      cases h
      exact ⟨r.trees, ihb hr,
        reflTransGen_of_chainFrom (fun _ _ _ hq => ihs hq) limit r.trees r.rest r.furthest⟩
  | before =>
    cases h
    rfl
  | beforeIs ks =>
    unfold run at h
    split at h
    · cases h
      rfl
    · cases h
  | rule r => exact hcall r toks q h

/-- If every rule keeps to what is expected of it, so does every reading. -/
theorem expected_of_read {rules : R → Grammar R}
    (hrules : ∀ r ts, (rules r).Yields I [] ts → I r ts) (n : Nat) {r : R} {toks : List Token}
    {q : Reading} (h : read rules limit n r toks = .ok q) : I r q.trees := by
  induction n generalizing r toks q with
  | zero => cases h
  | succ n ih => exact hrules r q.trees (yields_of_run (fun _ _ _ hq => ih hq) (rules r) h)

/-! ## Choices -/

/-- A choice yields what one of its members yields. -/
theorem exists_of_yields_choice {gs : List (Grammar R)} {acc ts : List Tree}
    (h : (choice gs).Yields I acc ts) : ∃ g ∈ gs, g.Yields I acc ts := by
  induction gs with
  | nil => exact absurd rfl h.2
  | cons g gs ih =>
    cases gs with
    | nil => exact ⟨g, by simp, h⟩
    | cons g' gs =>
      rcases h with h | h
      · exact ⟨g, by simp, h⟩
      · obtain ⟨x, hx, h⟩ := ih h
        exact ⟨x, List.mem_cons_of_mem g hx, h⟩

end MessageHarvest.Grammar
