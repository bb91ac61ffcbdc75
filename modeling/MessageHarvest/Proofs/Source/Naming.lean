import MessageHarvest.Proofs.Source.Lowering
import MessageHarvest.Proofs.Source.Reading
import MessageHarvest.Proofs.Source.Tokens

/-! # Nodes with dotted names

    Package declarations, imports and annotations have dotted names. Only a few
    phrases of the grammar build nodes of these kinds, so in a source that can be
    read all these nodes have the parts that they should have, with sound tokens
    (`Source.spelled_of_parse`). -/

namespace MessageHarvest

/-! ## Nodes with names -/

namespace Tree

open Grammar (isSymbol isWord)

/-- Identifiers with dots in between. -/
inductive Dotted : List (List Char) → Tree → Prop where
  | simple {r w} : w.kind = .word → Dotted [w.text] (.node r .identifier [.leaf none w])
  | qualified {r ns n d w} : Dotted ns n → isSymbol ['.'] d = true → w.kind = .word →
    Dotted (ns ++ [w.text])
      (.node r .scopedIdentifier [n, .leaf none d, .node none .identifier [.leaf none w]])

/-- An annotation. -/
def IsAnnotationForm (t : Tree) : Prop := ∃ k, t.kind? = some k ∧ k.isAnnotationForm = true

/-- The parts of an import: the keyword, maybe `static`, the name, maybe `.*`,
    and the semicolon. -/
inductive ImportOf : List Tree → Tree → List Tree → List Tree → Prop where
  | mk {k s} {static : List Tree} {name : Tree} {demand : List Tree} :
    isWord "import".toList k = true →
    (static = [] ∨ ∃ w, static = [.leaf none w] ∧ isWord "static".toList w = true) →
    (demand = [] ∨ ∃ d a, demand = [.leaf none d, .node none .asterisk [.leaf none a]] ∧
      isSymbol ['.'] d = true ∧ isSymbol ['*'] a = true) →
    isSymbol [';'] s = true →
    ImportOf static name demand
      (.leaf none k :: (static ++ (name :: (demand ++ [Tree.leaf none s]))))

/-- What the children of a node with a name are. -/
def Naming : Kind → List Tree → Prop
  | .annotationForm, cs | .markerForm, cs => ∃ p name rest ns, cs = .leaf none p :: name :: rest ∧
    name.role = some .name ∧ Dotted ns name
  | .packageDeclaration, cs => ∃ front p name q ns,
    cs = front ++ [Tree.leaf none p, name, .leaf none q] ∧ (∀ c ∈ front, c.IsAnnotationForm) ∧
      Dotted ns name
  | .importDeclaration, cs => ∃ static name demand ns, ImportOf static name demand cs ∧
    Dotted ns name
  | _, _ => True

/-- The kinds of nodes with names. -/
abbrev namedKinds : List Kind :=
  [.annotationForm, .markerForm, .packageDeclaration, .importDeclaration]

theorem naming_of_not_mem {k : Kind} (h : k ∉ namedKinds) (cs : List Tree) : Naming k cs := by
  cases k <;> first | exact trivial | exact absurd (by decide) h

/-- Every token is sound, and every node with a name has its parts. -/
inductive Spelled : Tree → Prop where
  | leaf {r t} : t.Sound → Spelled (.leaf r t)
  | node {r k cs} : Naming k cs → (∀ c ∈ cs, Spelled c) → Spelled (.node r k cs)

theorem Dotted.withRole {ns : List (List Char)} {t : Tree} (h : Dotted ns t) (r : Role) :
    Dotted ns (t.withRole r) := by
  cases h with
  | simple hw => exact .simple hw
  | qualified hn hd hw => exact .qualified hn hd hw

theorem Spelled.withRole {t : Tree} (h : t.Spelled) (r : Role) : (t.withRole r).Spelled := by
  cases h with
  | leaf ht => exact .leaf ht
  | node hnaming hcs => exact .node hnaming hcs

theorem closed_spelled : Grammar.Closed namedKinds Token.Sound Spelled where
  leaf _ ht := .leaf ht
  node _ cs hk hcs := .node (naming_of_not_mem hk cs) hcs
  role r _ ht := ht.withRole r
  part t r hkind ht := by
    refine ⟨fun hword => ?_, ht.lead⟩
    rw [hkind] at hword
    cases hword
  rest t r hkind ht := by
    refine ⟨fun hword => ?_, fun _ _ => List.forall_mem_nil _⟩
    rw [hkind] at hword
    cases hword

end Tree

namespace Syntax

open Grammar MessageHarvest.Tree

variable {limit : Nat} {call : Rule → List Token → Outcome} {acc : List Tree}
  {toks : List Token} {q : Reading}

/-! ## The phrases that build them -/

theorem run_anyName (h : anyName.run limit call acc toks = .ok q) :
    ∃ w : Token, w.kind = .word ∧ q.trees = [.node none .identifier [.leaf none w]] := by
  obtain ⟨r, hr, rfl⟩ := map_eq_ok h
  obtain ⟨w, hw, -, htrees⟩ := run_take hr
  have hkind : w.kind = .word := by simpa using (Bool.and_eq_true_iff.1 hw).1
  exact ⟨w, hkind, by rw [← htrees]⟩

/-- A dotted name is read as one. -/
theorem dotted_of_run (h : dottedName.run limit call acc toks = .ok q) :
    ∃ ns n, q.trees = [n] ∧ Dotted ns n := by
  unfold dottedName Grammar.run at h
  split at h
  · cases h
  · next base hbase =>
    cases h
    obtain ⟨w, hw, htrees⟩ := run_anyName hbase
    have hstart : ∃ ns n, base.trees = [n] ∧ Dotted ns n := ⟨_, _, htrees, .simple hw⟩
    refine chainFrom_keeps (fun acc _ => ∃ ns n, acc = [n] ∧ Dotted ns n)
      (fun acc toks q hacc hq => ?_) limit hstart base.furthest
    -- the name so far, a dot and an identifier
    obtain ⟨ns, n, rfl, hn⟩ := hacc
    obtain ⟨r, hr, rfl⟩ := map_eq_ok hq
    obtain ⟨x, y, hx, hy, htrees, -⟩ := run_seq hr
    obtain ⟨d, z, hd, hz, hytrees, -⟩ := run_seq hy
    obtain ⟨dot, hdot, -, hdtrees⟩ := run_take hd
    obtain ⟨w', hw', hztrees⟩ := run_anyName hz
    cases hx
    rw [hytrees, hdtrees, hztrees] at htrees
    exact ⟨_, _, by rw [htrees]; rfl, .qualified hn hdot hw'⟩

/-- A dotted name in the role of one. -/
theorem named_of_run (h : (Grammar.role .name dottedName).run limit call acc toks = .ok q) :
    ∃ ns name, q.trees = [name] ∧ name.role = some .name ∧ Dotted ns name := by
  obtain ⟨r, hr, rfl⟩ := map_eq_ok h
  obtain ⟨ns, n, hn, hdotted⟩ := dotted_of_run hr
  exact ⟨ns, n.withRole .name, by rw [hn]; rfl, role_withRole _ _, hdotted.withRole _⟩

/-- An annotation with arguments. -/
theorem naming_annotation {g : Phrase}
    (h : (cat [sym "@", .role .name dottedName, g]).run limit call acc toks = .ok q) :
    Naming .annotationForm q.trees := by
  obtain ⟨a, b, ha, hb, htrees, -⟩ := run_seq h
  obtain ⟨n, c, hn, hc, hbtrees, -⟩ := run_seq hb
  obtain ⟨p, -, -, hptrees⟩ := run_take ha
  obtain ⟨ns, name, hname, hrole, hdotted⟩ := named_of_run hn
  exact ⟨p, name, c.trees, ns, by rw [htrees, hbtrees, hptrees, hname]; rfl, hrole, hdotted⟩

/-- An annotation without arguments. -/
theorem naming_marker
    (h : (cat [sym "@", .role .name dottedName]).run limit call acc toks = .ok q) :
    Naming .markerForm q.trees := by
  obtain ⟨a, n, ha, hn, htrees, -⟩ := run_seq h
  obtain ⟨p, -, -, hptrees⟩ := run_take ha
  obtain ⟨ns, name, hname, hrole, hdotted⟩ := named_of_run hn
  exact ⟨p, name, [], ns, by rw [htrees, hptrees, hname]; rfl, hrole, hdotted⟩

theorem naming_package
    (hcall : ∀ toks q, call .annotationForm toks = .ok q → ∀ t ∈ q.trees, t.IsAnnotationForm)
    (h : (cat [star annotationForm, kw "package", dottedName, sym ";"]).run limit call acc toks =
      .ok q) : Naming .packageDeclaration q.trees := by
  obtain ⟨front, b, hfront, hb, htrees, -⟩ := run_seq h
  obtain ⟨k, c, hk, hc, hbtrees, -⟩ := run_seq hb
  obtain ⟨n, d, hn, hd, hctrees, -⟩ := run_seq hc
  obtain ⟨p, -, -, hptrees⟩ := run_take hk
  obtain ⟨ns, name, hname, hdotted⟩ := dotted_of_run hn
  obtain ⟨s, -, -, hstrees⟩ := run_take hd
  refine ⟨front.trees, p, name, s, ns, ?_, ?_, hdotted⟩
  · rw [htrees, hbtrees, hptrees, hctrees, hname, hstrees]
    rfl
  · cases hfront
    refine chainFrom_keeps (fun read _ => ∀ t ∈ read, t.IsAnnotationForm)
      (fun read toks q hread h => ?_) limit (List.forall_mem_nil _) 0
    obtain ⟨r, hr, rfl⟩ := map_eq_ok h
    exact List.forall_mem_append.2 ⟨hread, hcall toks r hr⟩

theorem naming_import
    (h : (cat [kw "import", opt (kw "static"), dottedName,
      opt (cat [sym ".", .node .asterisk (sym "*")]), sym ";"]).run limit call acc toks = .ok q) :
    Naming .importDeclaration q.trees := by
  obtain ⟨k, b, hk, hb, htrees, -⟩ := run_seq h
  obtain ⟨o, c, ho, hc, hbtrees, -⟩ := run_seq hb
  obtain ⟨n, d, hn, hd, hctrees, -⟩ := run_seq hc
  obtain ⟨e, s, he, hs, hdtrees, -⟩ := run_seq hd
  obtain ⟨p, hp, -, hptrees⟩ := run_take hk
  obtain ⟨ns, name, hname, hdotted⟩ := dotted_of_run hn
  obtain ⟨semicolon, hsemicolon, -, hstrees⟩ := run_take hs
  refine ⟨o.trees, name, e.trees, ns, ?_, hdotted⟩
  rw [htrees, hbtrees, hctrees, hdtrees, hptrees, hname, hstrees]
  refine .mk hp ?_ ?_ hsemicolon
  · rcases run_opt ho with ho | ⟨r, hr, ho⟩
    · exact .inl ho
    · obtain ⟨w, hw, -, hwtrees⟩ := run_take hr
      exact .inr ⟨w, ho.trans hwtrees, hw⟩
  · rcases run_opt he with he | ⟨r, hr, he⟩
    · exact .inl he
    · obtain ⟨x, y, hx, hy, hrtrees, -⟩ := run_seq hr
      obtain ⟨dot, hdot, -, hxtrees⟩ := run_take hx
      obtain ⟨z, hz, rfl⟩ := map_eq_ok hy
      obtain ⟨star, hstar, -, hztrees⟩ := run_take hz
      exact .inr ⟨dot, star, by rw [he, hrtrees, hxtrees, hztrees]; rfl, hdot, hstar⟩

/-! ## Rules -/

/-- The rules that build no node with a name. -/
theorem avoids_rules {r : Rule} (hform : r ≠ .annotationForm) (hstatement : r ≠ .statement) :
    (rules r).avoids namedKinds = true := by
  cases r with
  | annotationForm => exact absurd rfl hform
  | statement => exact absurd rfl hstatement
  | expression level arrow =>
    refine Bool.and_eq_true_iff.2 ⟨?_, avoids_choice.2 fun g hg => ?_⟩
    · cases arrow <;> decide +kernel
    · rcases continuation_cases hg with ⟨op, rfl⟩ | rfl | rfl | rfl <;> rfl
  | _ => decide +kernel

/-- The statements that build none. -/
theorem avoids_statement {g : Phrase} (hg : g ∈ controlStatements ++ [packageDeclaration,
    importDeclaration, moduleDeclaration, labeledStatement,
    .given (opt modifiers) (choice (typeDeclarations ++ [localVariables])), plainStatement]) :
    g.avoids namedKinds = true ∨ g = packageDeclaration ∨ g = importDeclaration := by
  have hcontrol : ∀ g ∈ controlStatements, g.avoids namedKinds = true :=
    List.all_eq_true.1 (by decide +kernel)
  rcases List.mem_append.1 hg with hg | hg
  · exact .inl (hcontrol g hg)
  · simp only [List.mem_cons, List.not_mem_nil, or_false] at hg
    rcases hg with rfl | rfl | rfl | rfl | rfl | rfl
    · exact .inr (.inl rfl)
    · exact .inr (.inr rfl)
    all_goals exact .inl (by decide +kernel)

/-- A node with a name is spelled if it has its parts. -/
theorem spelled_node {k : Kind} {g : Phrase}
    (hcall : ∀ r toks q, (∀ t ∈ toks, t.Sound) → call r toks = .ok q →
      q.Holds Spelled Token.Sound)
    (hg : g.avoids namedKinds = true)
    (hnaming : ∀ q, g.run limit call [] toks = .ok q → Naming k q.trees)
    (htoks : ∀ t ∈ toks, t.Sound) (h : (Grammar.node k g).run limit call [] toks = .ok q) :
    q.Holds Spelled Token.Sound := by
  obtain ⟨r, hr, rfl⟩ := map_eq_ok h
  obtain ⟨htrees, hrest⟩ :=
    run_keeps closed_spelled hcall hg (List.forall_mem_nil _) htoks hr
  exact ⟨List.forall_mem_singleton.2 (.node (hnaming r hr) htrees), hrest⟩

/-- What a rule for annotations reads is one of the two forms. -/
theorem run_annotationRule (h : annotationRule.run limit call [] toks = .ok q) :
    ∃ r, q.trees = r.trees ∧ q.rest = r.rest ∧
      ((Grammar.node .annotationForm (cat [sym "@", .role .name dottedName,
          .role .arguments annotationArguments])).run limit call [] toks = .ok r ∨
        (Grammar.node .markerForm (cat [sym "@", .role .name dottedName])).run limit call [] toks =
          .ok r) := by
  obtain ⟨a, b, ha, hb, htrees, hrest⟩ := run_seq h
  -- what may not be there is looked at and left where it is
  have hnothing : a.trees = [] ∧ a.rest = toks := by
    unfold Grammar.run at ha
    split at ha
    · cases ha
      exact ⟨rfl, rfl⟩
    · cases ha
  rw [hnothing.2] at hb
  rw [hnothing.1, List.nil_append] at htrees
  obtain ⟨g, hg, r, hr, hbtrees, hbrest⟩ := run_choice hb
  refine ⟨r, htrees.trans hbtrees, hrest.trans hbrest, ?_⟩
  simp only [List.mem_cons, List.not_mem_nil, or_false] at hg
  rcases hg with rfl | rfl
  · exact .inl hr
  · exact .inr hr

theorem spelled_annotationRule
    (hcall : ∀ r toks q, (∀ t ∈ toks, t.Sound) → call r toks = .ok q →
      q.Holds Spelled Token.Sound)
    (htoks : ∀ t ∈ toks, t.Sound) (h : annotationRule.run limit call [] toks = .ok q) :
    q.Holds Spelled Token.Sound := by
  obtain ⟨r, htrees, hrest, hr⟩ := run_annotationRule h
  rw [Reading.Holds, htrees, hrest]
  rcases hr with hr | hr
  · exact spelled_node hcall (by decide +kernel) (fun _ => naming_annotation) htoks hr
  · exact spelled_node hcall (by decide +kernel) (fun _ => naming_marker) htoks hr

theorem isAnnotationForm_of_read {n : Nat} (h : read rules limit n .annotationForm toks = .ok q) :
    ∀ t ∈ q.trees, t.IsAnnotationForm := by
  cases n with
  | zero => cases h
  | succ n =>
    obtain ⟨r, htrees, -, hr⟩ := run_annotationRule h
    rw [htrees]
    rcases hr with hr | hr
    all_goals
      obtain ⟨x, -, rfl⟩ := map_eq_ok hr
      exact List.forall_mem_singleton.2 ⟨_, rfl, rfl⟩

theorem spelled_of_read (n : Nat) {r : Rule} (htoks : ∀ t ∈ toks, t.Sound)
    (h : read rules limit n r toks = .ok q) : q.Holds Spelled Token.Sound := by
  induction n generalizing r toks q with
  | zero => cases h
  | succ n ih =>
    have hcall : ∀ r toks q, (∀ t ∈ toks, t.Sound) → read rules limit n r toks = .ok q →
        q.Holds Spelled Token.Sound := fun _ _ _ htoks h => ih htoks h
    -- only the rules for annotations and for statements build nodes with names
    by_cases hform : r = .annotationForm
    · subst hform
      exact spelled_annotationRule hcall htoks h
    by_cases hstatement : r = .statement
    · subst hstatement
      obtain ⟨g, hg, p, hp, htrees, hrest⟩ := run_choice h
      rw [Reading.Holds, htrees, hrest]
      rcases avoids_statement hg with hg | rfl | rfl
      · exact run_keeps closed_spelled hcall hg (List.forall_mem_nil _) htoks hp
      · exact spelled_node hcall (by decide +kernel)
          (fun _ => naming_package fun _ _ => isAnnotationForm_of_read) htoks hp
      · exact spelled_node hcall (by decide +kernel) (fun _ => naming_import) htoks hp
    exact run_keeps closed_spelled hcall (avoids_rules hform hstatement)
      (List.forall_mem_nil _) htoks h

end Syntax

namespace Source

/-- In a source that can be read, all nodes with names have their parts. -/
theorem spelled_of_parse {source : String} {t : Tree} (h : parse source = .ok t) : t.Spelled := by
  obtain ⟨r, hr, rfl⟩ := parse_eq_ok_iff.1 h
  obtain ⟨cs, hcs, -⟩ := Grammar.expected_of_read Syntax.expected_rules _ hr
  have hspelled := (Syntax.spelled_of_read _ (Token.sound_ofSource source) hr).1
  rw [hcs] at hspelled ⊢
  exact hspelled _ List.mem_cons_self

end Source

end MessageHarvest
