import MessageHarvest.Proofs.Source.Grammar

/-! # What a grammar reads

    The readings of a grammar are taken apart by its form. A property of trees
    that is closed under building nodes of most kinds (`Closed`) holds of
    whatever a grammar reads that builds no node of the other kinds
    (`run_keeps`). -/

namespace MessageHarvest

/-! ## Readings, form by form -/

namespace Grammar

variable {R : Type} {limit : Nat} {call : R → List Token → Outcome} {acc : List Tree}
  {toks : List Token} {q : Reading} {a b g : Grammar R}

theorem run_take {p : Token → Bool} (h : take p toks = .ok q) :
    ∃ t, p t = true ∧ toks = t :: q.rest ∧ q.trees = [.leaf none t] := by
  unfold take at h
  split at h
  · cases h
  · next t ts =>
    split at h
    · next ht =>
      cases h
      exact ⟨t, ht, rfl, rfl⟩
    · cases h

theorem run_look {p : Token → Bool} (h : look p toks = .ok q) : q.trees = [] ∧ q.rest = toks := by
  unfold look at h
  split at h
  · cases h
  · split at h
    · cases h
      exact ⟨rfl, rfl⟩
    · cases h

theorem run_seq (h : (seq a b).run limit call acc toks = .ok q) :
    ∃ r p, a.run limit call acc toks = .ok r ∧ b.run limit call acc r.rest = .ok p ∧
      q.trees = r.trees ++ p.trees ∧ q.rest = p.rest := by
  unfold run at h
  split at h
  · cases h
  · next r hr =>
    split at h
    · cases h
    · next p hp =>
      cases h
      exact ⟨r, p, hr, hp, rfl, rfl⟩

theorem run_alt (h : (alt a b).run limit call acc toks = .ok q) :
    ∃ r, (a.run limit call acc toks = .ok r ∨ b.run limit call acc toks = .ok r) ∧
      q.trees = r.trees ∧ q.rest = r.rest := by
  unfold run at h
  split at h
  · next hr =>
    cases h
    exact ⟨q, .inl hr, rfl, rfl⟩
  · split at h
    · next r hr =>
      cases h
      exact ⟨r, .inr hr, rfl, rfl⟩
    · cases h

/-- What may be there is there or is not. -/
theorem run_opt (h : (opt a).run limit call acc toks = .ok q) :
    q.trees = [] ∨ ∃ r, a.run limit call acc toks = .ok r ∧ q.trees = r.trees := by
  obtain ⟨r, hr | hr, htrees, -⟩ := run_alt h
  · exact .inr ⟨r, hr, htrees⟩
  · cases hr
    exact .inl htrees

theorem run_choice {gs : List (Grammar R)} (h : (choice gs).run limit call acc toks = .ok q) :
    ∃ g ∈ gs, ∃ r, g.run limit call acc toks = .ok r ∧ q.trees = r.trees ∧ q.rest = r.rest := by
  induction gs generalizing q with
  | nil => cases h
  | cons g gs ih =>
    cases gs with
    | nil => exact ⟨g, List.mem_cons_self, q, h, rfl, rfl⟩
    | cons g' gs =>
      obtain ⟨r, hr | hr, htrees, hrest⟩ := run_alt h
      · exact ⟨g, List.mem_cons_self, r, hr, htrees, hrest⟩
      · obtain ⟨x, hx, p, hp, hptrees, hprest⟩ := ih hr
        exact ⟨x, List.mem_cons_of_mem g hx, p, hp, htrees.trans hptrees, hrest.trans hprest⟩

/-! ## What all but a few phrases keep -/

/-- Trees that satisfy `P`, and tokens left that satisfy `L`. -/
def Reading.Holds (P : Tree → Prop) (L : Token → Prop) (q : Reading) : Prop :=
  (∀ t ∈ q.trees, P t) ∧ ∀ t ∈ q.rest, L t

/-- A grammar builds no node of some kinds itself. -/
def avoids (ks : List Tree.Kind) : Grammar R → Bool
  | node k g => !ks.contains k && g.avoids ks
  | seq a b | alt a b | given a b | chain a b => a.avoids ks && b.avoids ks
  | star g | role _ g => g.avoids ks
  | _ => true

/-- What holds of every tree if it holds of the nodes of some kinds. -/
structure Closed (ks : List Tree.Kind) (L : Token → Prop) (P : Tree → Prop) : Prop where
  leaf : ∀ t, L t → P (.leaf none t)
  node : ∀ k cs, k ∉ ks → (∀ c ∈ cs, P c) → P (.node none k cs)
  role : ∀ r t, P t → P (t.withRole r)
  /-- A symbol is divided. -/
  part : ∀ t r, t.kind = .symbol → L t → L { t with text := r }
  rest : ∀ t r, t.kind = .symbol → L t → L { t with lead := [], text := r }

variable {ks : List Tree.Kind} {L : Token → Prop} {P : Tree → Prop}

/-- A chain keeps what each of its steps keeps. -/
theorem chainFrom_keeps (I : List Tree → List Token → Prop)
    {step : List Tree → List Token → Outcome}
    (hstep : ∀ acc toks q, I acc toks → step acc toks = .ok q → I q.trees q.rest)
    (n : Nat) (h : I acc toks) (far : Nat) :
    I (chainFrom step n acc toks far).trees (chainFrom step n acc toks far).rest := by
  induction n generalizing acc toks far with
  | zero => exact h
  | succ n ih =>
    unfold chainFrom
    split
    · exact h
    · next r hr =>
      split
      · exact ih (hstep acc toks r h hr) _
      · exact h

theorem take_holds (hP : Closed ks L P) (htoks : ∀ t ∈ toks, L t) {p : Token → Bool}
    (h : take p toks = .ok q) : q.Holds P L := by
  obtain ⟨t, -, rfl, htrees⟩ := run_take h
  obtain ⟨ht, hrest⟩ := List.forall_mem_cons.1 htoks
  rw [Reading.Holds, htrees]
  exact ⟨List.forall_mem_singleton.2 (hP.leaf t ht), hrest⟩

theorem takeAngle_holds (hP : Closed ks L P) (htoks : ∀ t ∈ toks, L t)
    (h : takeAngle toks = .ok q) : q.Holds P L := by
  unfold takeAngle at h
  split at h
  · cases h
  · next t ts =>
    obtain ⟨ht, hts⟩ := List.forall_mem_cons.1 htoks
    split at h
    · cases h
      exact ⟨List.forall_mem_singleton.2 (hP.leaf t ht), hts⟩
    · next r _ hkind _ =>
      cases h
      exact ⟨List.forall_mem_singleton.2 (hP.leaf _ (hP.part t _ hkind ht)),
        List.forall_mem_cons.2 ⟨hP.rest t r hkind ht, hts⟩⟩
    · cases h

/-- A grammar that builds nothing leaves the tokens as they are. -/
theorem holds_nil (htoks : ∀ t ∈ toks, L t) (htrees : q.trees = []) (hrest : q.rest = toks) :
    q.Holds P L := by
  rw [Reading.Holds, htrees, hrest]
  exact ⟨List.forall_mem_nil _, htoks⟩

/-- What is closed under building other nodes holds of what a grammar reads. -/
theorem run_keeps (hP : Closed ks L P)
    (hcall : ∀ r toks q, (∀ t ∈ toks, L t) → call r toks = .ok q → q.Holds P L)
    (hg : g.avoids ks = true) (hacc : ∀ t ∈ acc, P t) (htoks : ∀ t ∈ toks, L t)
    (h : g.run limit call acc toks = .ok q) : q.Holds P L := by
  induction g generalizing acc toks q with
  | symbol | keyword | word | token => exact take_holds hP htoks h
  | angle => exact takeAngle_holds hP htoks h
  | finish | adjacent | ahead =>
    obtain ⟨htrees, hrest⟩ := run_look h
    exact holds_nil htoks htrees hrest
  | empty =>
    cases h
    exact holds_nil htoks rfl rfl
  | not g =>
    unfold run at h
    split at h
    · cases h
      exact holds_nil htoks rfl rfl
    · cases h
  | seq a b iha ihb =>
    obtain ⟨ha, hb⟩ := Bool.and_eq_true_iff.1 hg
    obtain ⟨r, p, hr, hp, htrees, hrest⟩ := run_seq h
    obtain ⟨hrtrees, hrrest⟩ := iha ha hacc htoks hr
    obtain ⟨hptrees, hprest⟩ := ihb hb hacc hrrest hp
    rw [Reading.Holds, htrees, hrest]
    exact ⟨List.forall_mem_append.2 ⟨hrtrees, hptrees⟩, hprest⟩
  | alt a b iha ihb =>
    obtain ⟨ha, hb⟩ := Bool.and_eq_true_iff.1 hg
    obtain ⟨r, hr, htrees, hrest⟩ := run_alt h
    rw [Reading.Holds, htrees, hrest]
    rcases hr with hr | hr
    · exact iha ha hacc htoks hr
    · exact ihb hb hacc htoks hr
  | star g ih =>
    cases h
    refine chainFrom_keeps (fun read toks => (∀ t ∈ read, P t) ∧ ∀ t ∈ toks, L t)
      (fun read toks q hread h => ?_) limit ⟨List.forall_mem_nil _, htoks⟩ 0
    obtain ⟨r, hr, rfl⟩ := map_eq_ok h
    obtain ⟨htrees, hrest⟩ := ih hg hacc hread.2 hr
    exact ⟨List.forall_mem_append.2 ⟨hread.1, htrees⟩, hrest⟩
  | node k g ih =>
    obtain ⟨hk, hg⟩ := Bool.and_eq_true_iff.1 hg
    obtain ⟨r, hr, rfl⟩ := map_eq_ok h
    obtain ⟨htrees, hrest⟩ := ih hg hacc htoks hr
    refine ⟨List.forall_mem_singleton.2 (hP.node k r.trees ?_ htrees), hrest⟩
    simpa using hk
  | role x g ih =>
    obtain ⟨r, hr, rfl⟩ := map_eq_ok h
    obtain ⟨htrees, hrest⟩ := ih hg hacc htoks hr
    exact ⟨List.forall_mem_map.2 fun t ht => hP.role x t (htrees t ht), hrest⟩
  | given a b iha ihb =>
    obtain ⟨ha, hb⟩ := Bool.and_eq_true_iff.1 hg
    unfold run at h
    split at h
    · cases h
    · next r hr =>
      obtain ⟨hrtrees, hrrest⟩ := iha ha hacc htoks hr
      split at h
      · cases h
      · next p hp =>
        cases h
        have hholds : p.Holds P L := ihb hb hrtrees hrrest hp
        exact hholds
  | chain base step ihb ihs =>
    obtain ⟨hbase, hstep⟩ := Bool.and_eq_true_iff.1 hg
    unfold run at h
    split at h
    · cases h
    · next r hr =>
      cases h
      exact chainFrom_keeps (fun read toks => (∀ t ∈ read, P t) ∧ ∀ t ∈ toks, L t)
        (fun _ _ _ hread h => ihs hstep hread.1 hread.2 h) limit (ihb hbase hacc htoks hr) _
  | before =>
    cases h
    exact ⟨hacc, htoks⟩
  | beforeIs ks =>
    unfold run at h
    split at h
    · cases h
      exact holds_nil htoks rfl rfl
    · cases h
  | rule r => exact hcall r toks q htoks h

theorem avoids_choice {gs : List (Grammar R)} :
    (choice gs).avoids ks = true ↔ ∀ g ∈ gs, g.avoids ks = true := by
  induction gs with
  | nil => simp [choice, avoids]
  | cons g gs ih =>
    cases gs with
    | nil => simp [choice]
    | cons g' gs =>
      rw [List.forall_mem_cons, ← ih]
      exact Bool.and_eq_true_iff

theorem isSymbol_iff {s : List Char} {t : Token} :
    isSymbol s t = true ↔ t.kind = .symbol ∧ t.text = s := by
  simp [isSymbol]

theorem isWord_iff {w : List Char} {t : Token} :
    isWord w t = true ↔ t.kind = .word ∧ t.text = w := by
  simp [isWord]

end Grammar

end MessageHarvest
