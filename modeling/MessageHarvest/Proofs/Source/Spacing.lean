import MessageHarvest.Proofs.Source.Layout

/-! # Reading does not depend on spacing

    A grammar looks at the class and the text of a token, and at what stands
    before it only inside `@interface` and `non-sealed`. So tokens that are the
    same but for what stands between them are read as the same tree:

    * `Token.relaid`: the same tokens with other spacing.
    * `Grammar.run_alike`: what a grammar reads of them is alike.
    * `Source.parse_relaid`: a source with other spacing is read as well. -/

namespace MessageHarvest

namespace Token

/-- Whether a token may stick to the one before it. Symbols are divided from the
    front, so it is the last character of the first token that counts. -/
def sticks (a b : Token) : Bool :=
  (a.text.getLast? = some '@' && b.text = "interface".toList) ||
  (a.text.getLast? = some 'n' && b.text = ['-']) ||
  (a.text.getLast? = some '-' && b.text = "sealed".toList)

/-- Behind a token, two rows of tokens touch it both or not, if that matters. -/
def touch (a : Token) : List Token → List Token → Bool
  | c :: _, d :: _ => !sticks a c || c.lead.isEmpty == d.lead.isEmpty
  | _, _ => true

/-- The same tokens but for what stands between them. -/
def relaid : List Token → List Token → Bool
  | [], [] => true
  | a :: ts, b :: us =>
    a.kind = b.kind && a.text = b.text && a.index = b.index && touch a ts us && relaid ts us
  | _, _ => false

/-- A token apart from what stands before it and from its place. -/
def core (t : Token) : Token := { t with lead := [], line := 1, index := 0 }

theorem relaid_nil {us : List Token} (h : relaid [] us = true) : us = [] := by
  cases us with
  | nil => rfl
  | cons b us => cases h

theorem relaid_cons {a : Token} {ts us : List Token} (h : relaid (a :: ts) us = true) :
    ∃ b us', us = b :: us' ∧ a.kind = b.kind ∧ a.text = b.text ∧ a.index = b.index ∧
      touch a ts us' = true ∧ relaid ts us' = true := by
  cases us with
  | nil => cases h
  | cons b us =>
    simp only [relaid, Bool.and_eq_true, decide_eq_true_eq] at h
    obtain ⟨⟨⟨⟨hkind, htext⟩, hindex⟩, htouch⟩, hrest⟩ := h
    exact ⟨b, us, rfl, hkind, htext, hindex, htouch, hrest⟩

theorem length_of_relaid {ts us : List Token} (h : relaid ts us = true) :
    us.length = ts.length := by
  induction ts generalizing us with
  | nil => rw [relaid_nil h]
  | cons a ts ih =>
    obtain ⟨b, us, rfl, -, -, -, -, hrest⟩ := relaid_cons h
    rw [List.length_cons, List.length_cons, ih hrest]

theorem core_eq {a b : Token} (hkind : a.kind = b.kind) (htext : a.text = b.text) :
    a.core = b.core := by
  rw [core, core, hkind, htext]

end Token

/-- A tree apart from spacing and places. -/
abbrev Tree.core (t : Tree) : Tree := t.mapTokens Token.core

namespace Grammar

variable {R : Type} {limit : Nat} {call : R → List Token → Outcome} {acc acc' : List Tree}
  {ts us : List Token} {a b g : Grammar R}

/-- Both readings fail, or both read the same trees and leave the same tokens,
    apart from spacing. -/
inductive Alike : Outcome → Outcome → Prop where
  | error {m n : Nat} : Alike (.error m) (.error n)
  | ok {q p : Reading} : q.trees.map Tree.core = p.trees.map Tree.core →
    Token.relaid q.rest p.rest = true → Alike (.ok q) (.ok p)

/-! ## Tokens -/

theorem place_eq (h : Token.relaid ts us = true) : place ts = place us := by
  cases ts with
  | nil => rw [Token.relaid_nil h]
  | cons a ts =>
    obtain ⟨b, us, rfl, -, -, hindex, -, -⟩ := Token.relaid_cons h
    exact hindex

theorem take_alike {p : Token → Bool}
    (hp : ∀ a b : Token, a.kind = b.kind → a.text = b.text → p a = p b)
    (h : Token.relaid ts us = true) : Alike (take p ts) (take p us) := by
  cases ts with
  | nil =>
    rw [Token.relaid_nil h]
    exact .error
  | cons a ts =>
    obtain ⟨b, us, rfl, hkind, htext, -, -, hrest⟩ := Token.relaid_cons h
    rw [take, take, hp a b hkind htext]
    split
    · exact .ok (congrArg (fun t => [Tree.leaf none t]) (Token.core_eq hkind htext)) hrest
    · exact .error

theorem look_alike {p : Token → Bool}
    (hp : ∀ a b : Token, a.kind = b.kind → a.text = b.text → p a = p b)
    (h : Token.relaid ts us = true) : Alike (look p ts) (look p us) := by
  cases ts with
  | nil =>
    rw [Token.relaid_nil h]
    exact .error
  | cons a ts =>
    obtain ⟨b, us, rfl, hkind, htext, -, -, -⟩ := Token.relaid_cons h
    rw [look, look, hp a b hkind htext]
    split
    · exact .ok rfl h
    · exact .error

theorem isSymbol_congr {s : List Char} (a b : Token) (hkind : a.kind = b.kind)
    (htext : a.text = b.text) : isSymbol s a = isSymbol s b := by
  rw [isSymbol, isSymbol, hkind, htext]

theorem isWord_congr {w : List Char} (a b : Token) (hkind : a.kind = b.kind)
    (htext : a.text = b.text) : isWord w a = isWord w b := by
  rw [isWord, isWord, hkind, htext]

/-- The second half of a symbol that is divided sticks to what the symbol sticks to. -/
theorem touch_rest {a : Token} {r : List Char} (hr : r ≠ []) (ha : a.text = '>' :: r)
    (h : Token.touch a ts us = true) :
    Token.touch { a with lead := [], text := r } ts us = true := by
  have hlast : ∀ c, Token.sticks { a with lead := [], text := r } c = Token.sticks a c := by
    intro c
    cases r with
    | nil => exact absurd rfl hr
    | cons d r => simp [Token.sticks, ha]
  cases ts with
  | nil => rfl
  | cons c ts =>
    cases us with
    | nil => rfl
    | cons d us => simpa [Token.touch, hlast] using h

theorem takeAngle_alike (h : Token.relaid ts us = true) :
    Alike (takeAngle ts) (takeAngle us) := by
  cases ts with
  | nil =>
    rw [Token.relaid_nil h]
    exact .error
  | cons a ts =>
    obtain ⟨b, us, rfl, hkind, htext, hindex, htouch, hrest⟩ := Token.relaid_cons h
    simp only [takeAngle, ← hkind, ← htext, ← hindex]
    split
    · exact .ok (congrArg (fun t => [Tree.leaf none t]) (Token.core_eq hkind htext)) hrest
    · next r hr _ hangle =>
      refine .ok (congrArg (fun t => [Tree.leaf none t]) (Token.core_eq rfl rfl)) ?_
      simp only [Token.relaid, touch_rest hr hangle htouch, hrest, decide_true, Bool.and_self]
    · exact .error

/-! ## Grammars -/

theorem Alike.map {x y : Outcome} (h : Alike x y) {f f' : Reading → Reading}
    (htrees : ∀ q p : Reading, q.trees.map Tree.core = p.trees.map Tree.core →
      (f q).trees.map Tree.core = (f' p).trees.map Tree.core)
    (hrest : ∀ q, (f q).rest = q.rest) (hrest' : ∀ q, (f' q).rest = q.rest) :
    Alike (x.map f) (y.map f') := by
  cases h with
  | error => exact .error
  | @ok q p hq hrests =>
    refine .ok (htrees q p hq) ?_
    rw [hrest, hrest']
    exact hrests

/-- One grammar behind another. -/
theorem seq_alike (ha : Alike (a.run limit call acc ts) (a.run limit call acc' us))
    (hb : ∀ q p, a.run limit call acc ts = .ok q → a.run limit call acc' us = .ok p →
      Token.relaid q.rest p.rest = true →
      Alike (b.run limit call acc q.rest) (b.run limit call acc' p.rest)) :
    Alike ((seq a b).run limit call acc ts) ((seq a b).run limit call acc' us) := by
  generalize hx : a.run limit call acc ts = x at ha hb
  generalize hy : a.run limit call acc' us = y at ha hb
  cases ha with
  | error =>
    simp only [run, hx, hy]
    exact .error
  | @ok q p htrees hrest =>
    have hrests := hb q p rfl rfl hrest
    generalize hz : b.run limit call acc q.rest = z at hrests
    generalize hw : b.run limit call acc' p.rest = w at hrests
    cases hrests with
    | error =>
      simp only [run, hx, hy, hz, hw]
      exact .error
    | @ok q' p' htrees' hrest' =>
      simp only [run, hx, hy, hz, hw]
      exact .ok (by simp only [List.map_append, htrees, htrees']) hrest'

/-- The steps of a chain are alike. -/
theorem chainFrom_alike {step step' : List Tree → List Token → Outcome}
    (hstep : ∀ acc acc' ts us, acc.map Tree.core = acc'.map Tree.core →
      Token.relaid ts us = true → Alike (step acc ts) (step' acc' us))
    (n : Nat) (hacc : acc.map Tree.core = acc'.map Tree.core) (h : Token.relaid ts us = true)
    (far far' : Nat) :
    Alike (.ok (chainFrom step n acc ts far)) (.ok (chainFrom step' n acc' us far')) := by
  induction n generalizing acc acc' ts us far far' with
  | zero => exact .ok hacc h
  | succ n ih =>
    have hsteps := hstep acc acc' ts us hacc h
    generalize hx : step acc ts = x at hsteps
    generalize hy : step' acc' us = y at hsteps
    cases hsteps with
    | error =>
      simp only [chainFrom, hx, hy]
      exact .ok hacc h
    | @ok q p htrees hrest =>
      -- a chain goes on as long as a step reads something, which places tell
      simp only [chainFrom, hx, hy, place_eq h, place_eq hrest]
      split
      · exact ih htrees hrest _ _
      · exact .ok hacc h

/-! ## Phrases of tokens that touch -/

/-- Behind a token `t`, what asks whether the next token touches it and reads only
    tokens that may stick to it. -/
theorem adjacent_alike {t : Token} (htouch : t.touch ts us = true)
    (h : Token.relaid ts us = true)
    (hb : Alike (b.run limit call acc ts) (b.run limit call acc' us))
    (hfail : ∀ c rest acc, t.sticks c = false → ∃ m, b.run limit call acc (c :: rest) = .error m) :
    Alike ((seq adjacent b).run limit call acc ts) ((seq adjacent b).run limit call acc' us) := by
  cases ts with
  | nil =>
    rw [Token.relaid_nil h]
    exact .error
  | cons c ts =>
    obtain ⟨d, us, rfl, -, htext, -, -, -⟩ := Token.relaid_cons h
    cases hsticks : t.sticks c with
    | true =>
      have hlead : c.lead.isEmpty = d.lead.isEmpty := by simpa [Token.touch, hsticks] using htouch
      refine seq_alike ?_ fun q p hq hp _ => ?_
      · simp only [run, look, hlead]
        split
        · exact .ok rfl h
        · exact .error
      · rw [(run_look hq).2, (run_look hp).2]
        exact hb
    | false =>
      -- the next token is another one, so it does not matter whether it touches
      have hsticks' : t.sticks d = false := by
        rw [← hsticks, Token.sticks, Token.sticks, htext]
      have herror : ∀ rest acc {e : Token}, t.sticks e = false →
          ∃ m, (seq adjacent b).run limit call acc (e :: rest) = .error m := by
        intro rest acc e he
        obtain ⟨m, hm⟩ := hfail e rest acc he
        simp only [run, look]
        split
        · exact ⟨_, rfl⟩
        · next r hr =>
          split at hr
          · cases hr
            rw [hm]
            exact ⟨_, rfl⟩
          · cases hr
      obtain ⟨m, hm⟩ := herror ts acc hsticks
      obtain ⟨n, hn⟩ := herror us acc' hsticks'
      rw [hm, hn]
      exact .error

/-- Behind a token that was taken, the rest touches it both or not. -/
theorem touch_of_take {p : Token → Bool} {q r : Reading} (h : Token.relaid ts us = true)
    (hq : take p ts = .ok q) (hr : take p us = .ok r) :
    ∃ t, p t = true ∧ t.touch q.rest r.rest = true := by
  obtain ⟨t, ht, rfl, -⟩ := run_take hq
  obtain ⟨v, -, rfl, -⟩ := run_take hr
  obtain ⟨b, us, hus, -, -, -, htouch, -⟩ := Token.relaid_cons h
  cases hus
  exact ⟨t, ht, htouch⟩

/-- The phrases of tokens that touch. -/
def touching : Grammar R → Bool
  | seq (symbol s) (seq adjacent (keyword w)) =>
    s.getLast? = some '@' && w = "interface".toList
  | seq (keyword v) (seq adjacent (seq (symbol s) (seq adjacent (keyword w)))) =>
    v.getLast? = some 'n' && s = ['-'] && w = "sealed".toList
  | _ => false

/-- A keyword that would stick to the token before is read only if it does. -/
theorem keyword_fails {t c : Token} {w : List Char} (hsticks : c.text = w → t.sticks c = true)
    (hc : t.sticks c = false) (rest : List Token) :
    ∃ m, (keyword w : Grammar R).run limit call acc (c :: rest) = .error m := by
  have hword : isWord w c = false := by
    rw [Bool.eq_false_iff]
    intro hword
    rw [hsticks (isWord_iff.1 hword).2] at hc
    cases hc
  exact ⟨c.index, by simp only [run, take, hword, Bool.false_eq_true, if_false]⟩

/-- `@interface`. -/
theorem atInterface_alike {s : List Char} (hs : s.getLast? = some '@')
    (h : Token.relaid ts us = true) :
    Alike ((seq (symbol s) (seq adjacent (keyword "interface".toList)) : Grammar R).run limit call
        acc ts)
      ((seq (symbol s) (seq adjacent (keyword "interface".toList))).run limit call acc' us) := by
  refine seq_alike (take_alike isSymbol_congr h) fun q p hq hp hrest => ?_
  obtain ⟨t, ht, htouch⟩ := touch_of_take h hq hp
  refine adjacent_alike htouch hrest (take_alike isWord_congr hrest) fun c rest _ hc => ?_
  refine keyword_fails (fun hw => ?_) hc rest
  rw [Token.sticks, (isSymbol_iff.1 ht).2, hs, hw]
  rfl

/-- `non-sealed`. -/
theorem nonSealed_alike {v : List Char} (hv : v.getLast? = some 'n')
    (h : Token.relaid ts us = true) :
    Alike ((seq (keyword v) (seq adjacent (seq (symbol ['-']) (seq adjacent
        (keyword "sealed".toList)))) : Grammar R).run limit call acc ts)
      ((seq (keyword v) (seq adjacent (seq (symbol ['-']) (seq adjacent
        (keyword "sealed".toList))))).run limit call acc' us) := by
  refine seq_alike (take_alike isWord_congr h) fun q p hq hp hrest => ?_
  obtain ⟨t, ht, htouch⟩ := touch_of_take h hq hp
  refine adjacent_alike htouch hrest ?_ fun c rest acc hc => ?_
  · refine seq_alike (take_alike isSymbol_congr hrest) fun q' p' hq' hp' hrest' => ?_
    obtain ⟨t', ht', htouch'⟩ := touch_of_take hrest hq' hp'
    refine adjacent_alike htouch' hrest' (take_alike isWord_congr hrest') fun c rest _ hc => ?_
    refine keyword_fails (fun hw => ?_) hc rest
    rw [Token.sticks, (isSymbol_iff.1 ht').2, hw]
    rfl
  · have hsymbol : isSymbol ['-'] c = false := by
      rw [Bool.eq_false_iff]
      intro hsymbol
      rw [Token.sticks, (isWord_iff.1 ht).2, hv, (isSymbol_iff.1 hsymbol).2] at hc
      cases hc
    exact ⟨c.index, by simp only [run, take, hsymbol, Bool.false_eq_true, if_false]⟩

theorem touching_alike (hg : g.touching = true) (h : Token.relaid ts us = true) :
    Alike (g.run limit call acc ts) (g.run limit call acc' us) := by
  unfold touching at hg
  split at hg
  · obtain ⟨hs, hw⟩ := Bool.and_eq_true_iff.1 hg
    cases of_decide_eq_true hw
    exact atInterface_alike (of_decide_eq_true hs) h
  · obtain ⟨hvs, hw⟩ := Bool.and_eq_true_iff.1 hg
    obtain ⟨hv, hs⟩ := Bool.and_eq_true_iff.1 hvs
    cases of_decide_eq_true hw
    cases of_decide_eq_true hs
    exact nonSealed_alike (of_decide_eq_true hv) h
  · cases hg

/-! ## All grammars -/

/-- A grammar asks for touching tokens only in these phrases. -/
def blind : Grammar R → Bool
  | adjacent => false
  | seq a b => touching (seq a b) || (a.blind && b.blind)
  | alt a b | given a b | chain a b => a.blind && b.blind
  | not g | star g | node _ g | role _ g => g.blind
  | _ => true

theorem run_alike
    (hcall : ∀ r ts us, Token.relaid ts us = true → Alike (call r ts) (call r us))
    (hg : g.blind = true) (hacc : acc.map Tree.core = acc'.map Tree.core)
    (h : Token.relaid ts us = true) :
    Alike (g.run limit call acc ts) (g.run limit call acc' us) := by
  induction g generalizing acc acc' ts us with
  | symbol s => exact take_alike isSymbol_congr h
  | keyword w => exact take_alike isWord_congr h
  | word ws =>
    refine take_alike (fun a b hkind htext => ?_) h
    rw [isAnyWord, isAnyWord, hkind, htext]
  | token k =>
    refine take_alike (fun a b hkind _ => ?_) h
    rw [hkind]
  | angle => exact takeAngle_alike h
  | finish =>
    refine look_alike (fun a b hkind _ => ?_) h
    rw [hkind]
  | adjacent => cases hg
  | ahead p =>
    refine look_alike (fun a b hkind htext => ?_) h
    rw [hkind, htext]
  | empty => exact .ok rfl h
  | not g ih =>
    have hread := ih hg hacc h
    generalize hx : g.run limit call acc ts = x at hread
    generalize hy : g.run limit call acc' us = y at hread
    cases hread with
    | error =>
      simp only [run, hx, hy]
      exact .ok rfl h
    | ok =>
      simp only [run, hx, hy]
      exact .error
  | seq a b iha ihb =>
    rcases Bool.or_eq_true_iff.1 hg with hg | hg
    · exact touching_alike hg h
    · obtain ⟨ha, hb⟩ := Bool.and_eq_true_iff.1 hg
      exact seq_alike (iha ha hacc h) fun _ _ _ _ hrest => ihb hb hacc hrest
  | alt a b iha ihb =>
    -- the choice is ordered, so the first grammar has to fail on both as well
    obtain ⟨ha, hb⟩ := Bool.and_eq_true_iff.1 hg
    have hfirst := iha ha hacc h
    have hsecond := ihb hb hacc h
    generalize hx : a.run limit call acc ts = x at hfirst
    generalize hy : a.run limit call acc' us = y at hfirst
    generalize hz : b.run limit call acc ts = z at hsecond
    generalize hw : b.run limit call acc' us = w at hsecond
    simp only [run, hx, hy, hz, hw]
    cases hfirst with
    | ok htrees hrest => exact .ok htrees hrest
    | error =>
      cases hsecond with
      | ok htrees hrest => exact .ok htrees hrest
      | error => exact .error
  | star g ih =>
    refine chainFrom_alike (fun read read' ts us hread h => ?_) limit rfl h 0 0
    refine (ih hg hacc h).map (fun q p htrees => ?_) (fun _ => rfl) fun _ => rfl
    simp only [List.map_append, hread, htrees]
  | node k g ih =>
    refine (ih hg hacc h).map (fun q p htrees => ?_) (fun _ => rfl) fun _ => rfl
    simp only [List.map_cons, List.map_nil, Tree.core, Tree.mapTokens_node]
    rw [htrees]
  | role x g ih =>
    refine (ih hg hacc h).map (fun q p htrees => ?_) (fun _ => rfl) fun _ => rfl
    have hrole : ∀ ts : List Tree, (ts.map (Tree.withRole x)).map Tree.core =
        (ts.map Tree.core).map (Tree.withRole x) := by
      intro ts
      rw [List.map_map, List.map_map]
      refine List.map_congr_left fun t _ => ?_
      cases t <;> rfl
    rw [hrole, hrole, htrees]
  | given a b iha ihb =>
    obtain ⟨ha, hb⟩ := Bool.and_eq_true_iff.1 hg
    have hfirst := iha ha hacc h
    generalize hx : a.run limit call acc ts = x at hfirst
    generalize hy : a.run limit call acc' us = y at hfirst
    cases hfirst with
    | error =>
      simp only [run, hx, hy]
      exact .error
    | @ok q p htrees hrest =>
      have hsecond := ihb hb htrees hrest
      generalize hz : b.run limit call q.trees q.rest = z at hsecond
      generalize hw : b.run limit call p.trees p.rest = w at hsecond
      simp only [run, hx, hy, hz, hw]
      cases hsecond with
      | error => exact .error
      | ok htrees' hrest' => exact .ok htrees' hrest'
  | chain base step ihb ihs =>
    obtain ⟨hbase, hstep⟩ := Bool.and_eq_true_iff.1 hg
    have hfirst := ihb hbase hacc h
    generalize hx : base.run limit call acc ts = x at hfirst
    generalize hy : base.run limit call acc' us = y at hfirst
    simp only [run, hx, hy]
    cases hfirst with
    | error => exact .error
    | ok htrees hrest =>
      exact chainFrom_alike (fun _ _ _ _ hread h => ihs hstep hread h) limit htrees hrest _ _
  | before => exact .ok hacc h
  | beforeIs ks =>
    have hkinds : ∀ acc : List Tree, acc.any (fun t => t.kind?.any ks.contains) =
        (acc.map Tree.core).any fun t => t.kind?.any ks.contains := by
      intro acc
      simp only [List.any_map, Function.comp_def, Tree.core, Tree.kind?_mapTokens]
    have hany := hkinds acc
    rw [hacc, ← hkinds acc'] at hany
    simp only [run, hany]
    split
    · exact .ok rfl h
    · exact .error
  | rule r => exact hcall r ts us h

theorem read_alike {rules : R → Grammar R} (hrules : ∀ r, (rules r).blind = true) (n : Nat) {r : R}
    (h : Token.relaid ts us = true) :
    Alike (read rules limit n r ts) (read rules limit n r us) := by
  induction n generalizing r ts us with
  | zero => exact .error
  | succ n ih => exact run_alike (fun _ _ _ h => ih h) (hrules r) rfl h

theorem blind_choice {gs : List (Grammar R)} :
    (choice gs).blind = true ↔ ∀ g ∈ gs, g.blind = true := by
  induction gs with
  | nil => simp [choice, blind]
  | cons g gs ih =>
    cases gs with
    | nil => simp [choice]
    | cons g' gs =>
      rw [List.forall_mem_cons, ← ih]
      exact Bool.and_eq_true_iff

end Grammar

/-! ## Sources -/

/-- No rule asks for touching tokens but in `@interface` and `non-sealed`. -/
theorem Syntax.blind_rules (r : Rule) : (rules r).blind = true := by
  cases r with
  | expression level arrow =>
    refine Bool.and_eq_true_iff.2 ⟨?_, Grammar.blind_choice.2 fun g hg => ?_⟩
    · cases arrow <;> decide +kernel
    · rcases continuation_cases hg with ⟨op, rfl⟩ | rfl | rfl | rfl <;> rfl
  | _ => decide +kernel

theorem Source.readProgram_alike {ts us : List Token} (h : Token.relaid ts us = true) :
    Grammar.Alike (readProgram ts) (readProgram us) := by
  simp only [readProgram, Token.length_of_relaid h]
  exact Grammar.read_alike Syntax.blind_rules _ h

/-- A source that can be read can be read with any other spacing between the
    same tokens, and has the same tree apart from spacing. -/
theorem Source.parse_relaid {source source' : String} {t : Tree} (h : parse source = .ok t)
    (hrelaid : Token.relaid (Token.ofSource source) (Token.ofSource source') = true) :
    ∃ t', parse source' = .ok t' ∧ t'.core = t.core := by
  obtain ⟨r, hr, rfl⟩ := parse_eq_ok_iff.1 h
  obtain ⟨cs, hcs, -⟩ := Grammar.expected_of_read Syntax.expected_rules _ hr
  have halike := readProgram_alike hrelaid
  rw [hr] at halike
  generalize hr' : readProgram (Token.ofSource source') = y at halike
  cases halike with
  | @ok _ p htrees _ =>
    refine ⟨_, parse_eq_ok_iff.2 ⟨p, hr', rfl⟩, ?_⟩
    rw [hcs] at htrees ⊢
    cases hp : p.trees with
    | nil =>
      rw [hp] at htrees
      cases htrees
    | cons t' ts =>
      rw [hp] at htrees
      exact (List.cons.inj htrees).1.symm

end MessageHarvest
