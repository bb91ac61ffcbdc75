import MessageHarvest.Proofs.Source.Lines
import MessageHarvest.Proofs.Source.Spacing

/-! # Names and messages do not depend on the layout of names

    What the unit of a source has for names is read off its tree (`Reads`). In
    another source of the same tokens whose layout differs in names only, all
    names are the same, and a scan finds the same messages, unless there are
    comments in names (`layout_of_names`). A comment becomes part of the name, so
    that a rule no longer asks for it (`commented_import_lost`). -/

namespace MessageHarvest

/-! ## Deciding -/

namespace Tree

mutual

/-- Whether two trees are the same. -/
def decEq : (t u : Tree) → Decidable (t = u)
  | leaf r a, leaf s b =>
    if h : r = s ∧ a = b then isTrue (by rw [h.1, h.2])
    else isFalse fun heq => h (by cases heq; exact ⟨rfl, rfl⟩)
  | node r k cs, node s l ds =>
    match decEqList cs ds with
    | isTrue hcs =>
      if h : r = s ∧ k = l then isTrue (by rw [h.1, h.2, hcs])
      else isFalse fun heq => h (by cases heq; exact ⟨rfl, rfl⟩)
    | isFalse hcs => isFalse fun heq => hcs (by cases heq; rfl)
  | leaf .., node .. => isFalse fun heq => nomatch heq
  | node .., leaf .. => isFalse fun heq => nomatch heq

/-- Whether two lists of trees are the same. -/
def decEqList : (ts us : List Tree) → Decidable (ts = us)
  | [], [] => isTrue rfl
  | t :: ts, u :: us =>
    match decEq t u, decEqList ts us with
    | isTrue ht, isTrue hts => isTrue (by rw [ht, hts])
    | isFalse ht, _ => isFalse fun heq => ht (List.cons.inj heq).1
    | _, isFalse hts => isFalse fun heq => hts (List.cons.inj heq).2
  | [], _ :: _ => isFalse fun heq => nomatch heq
  | _ :: _, [] => isFalse fun heq => nomatch heq

end

instance : DecidableEq Tree := decEq

instance (t : Tree) : Decidable t.IsAnnotationForm :=
  decidable_of_iff (t.kind?.any Kind.isAnnotationForm = true) (Option.any_eq_true _ _)

instance (t : Tree) : Decidable t.PlainNames :=
  inferInstanceAs (Decidable (∀ n ∈ t.shown, n.IsAnnotationForm → _))

instance (t : Tree) : Decidable t.Uncommented :=
  decidable_of_iff ((∀ c ∈ t.children, c.kind? = some .packageDeclaration ∨
      c.kind? = some .importDeclaration → Token.Plain c.nameTokens.tail) ∧ t.PlainNames)
    ⟨fun h => ⟨h.1, h.2⟩, fun h => ⟨h.1, h.2⟩⟩

/-! ## What the names of a unit are read off -/

/-- The name of an annotation. -/
def annotationName (t : Tree) : String := (Meaning.annotationOf t.line (meanings t.children)).name

/-- The visible marks of a tree are those of the trees that are shown. -/
theorem visible_eq (t : Tree) : t.visible = t.shown.filterMap mark? := by
  induction t using induct with
  | leaf r t => rfl
  | node r k cs ih =>
    have hchildren : ∀ cs : List Tree, (∀ c ∈ cs, c.visible = c.shown.filterMap mark?) →
        visibleIn k cs = (partsByIn hides k cs).filterMap mark? := by
      intro cs ih
      induction cs with
      | nil => rfl
      | cons c cs ihcs =>
        obtain ⟨hc, hcs⟩ := List.forall_mem_cons.1 ih
        rw [visibleIn, partsByIn, List.filterMap_append, ← ihcs hcs]
        cases hides k c with
        | true => rfl
        | false => exact congrArg (· ++ visibleIn k cs) hc
    rw [visible, shown, partsBy, List.filterMap_cons, hchildren cs ih]
    cases (Tree.node r k cs).mark? <;> rfl

end Tree

/-- The name of a mark that is an annotation. -/
def Mark.annotationName? : Mark → Option String
  | .call .. => none
  | .annotated _ name => some name

/-- The name of a site that is an annotation. -/
def Site.annotationName? : Site → Option String
  | .call .. => none
  | .annotated a => some a.name

/-- The names of a unit are those that are read off the declarations at the top of
    a tree and off the annotations in it, each in source order; of several
    package declarations the last one counts. -/
structure SourceUnit.Reads (u : SourceUnit) (t : Tree) : Prop where
  package : u.package? = (t.children.filter
    fun c => c.kind? = some .packageDeclaration).getLast?.bind Tree.packageName?
  imports : u.imports = (t.children.filter
    fun c => c.kind? = some .importDeclaration).filterMap Tree.importedType?
  annotations : (sitesNodes u.nodes).filterMap Site.annotationName? =
    (t.shown.filter fun n => n.IsAnnotationForm).map Tree.annotationName

namespace Tree

theorem package?_foldl_addTo (cs : List Tree) (u : SourceUnit) :
    (cs.foldl addTo u).package? = ((cs.filter
      fun c => c.kind? = some .packageDeclaration).getLast?.map packageName?).getD u.package? := by
  induction cs generalizing u with
  | nil => rfl
  | cons c cs ih =>
    rw [List.foldl_cons, ih]
    by_cases hk : c.kind? = some .packageDeclaration
    · rw [List.filter_cons_of_pos (by simp [hk]), List.getLast?_cons, addTo, hk]
      cases (cs.filter fun c => c.kind? = some .packageDeclaration).getLast? <;> rfl
    · have hsame : (addTo u c).package? = u.package? := by
        unfold addTo
        split
        · next h => exact absurd h hk
        · rfl
        · rfl
      rw [List.filter_cons_of_neg (by simp [hk]), hsame]

theorem imports_foldl_addTo (cs : List Tree) (u : SourceUnit) :
    (cs.foldl addTo u).imports = u.imports ++ (cs.filter
      fun c => c.kind? = some .importDeclaration).filterMap importedType? := by
  induction cs generalizing u with
  | nil => simp
  | cons c cs ih =>
    rw [List.foldl_cons, ih]
    by_cases hk : c.kind? = some .importDeclaration
    · rw [List.filter_cons_of_pos (by simp [hk]), List.filterMap_cons, addTo, hk]
      cases c.importedType? <;> simp
    · have hsame : (addTo u c).imports = u.imports := by
        unfold addTo
        split
        · rfl
        · next h => exact absurd h hk
        · rfl
      rw [List.filter_cons_of_neg (by simp [hk]), hsame]

theorem annotationName?_mark? (n : Tree) : n.mark?.bind Mark.annotationName? =
    if n.IsAnnotationForm then some n.annotationName else none := by
  cases n with
  | leaf r t => rfl
  | node r k cs =>
    have hname : (Tree.node r k cs).annotationName =
        String.ofList (Text.compact (childText .name cs)) := by
      simp only [annotationName, Meaning.annotationOf, Annotation.name, children, find?_meanings,
        childText]
      cases child? .name cs with
      | none => rfl
      | some c => simp [Meaning.text]
    by_cases hk : k.isAnnotationForm = true
    · have hform : (Tree.node r k cs).IsAnnotationForm := ⟨k, rfl, hk⟩
      rw [mark?_of_isAnnotationForm hk, if_pos hform, hname]
      rfl
    · have hform : ¬ (Tree.node r k cs).IsAnnotationForm := by
        rintro ⟨k', h, hk'⟩
        cases h
        exact hk hk'
      rw [if_neg hform]
      cases k <;> first | rfl | exact absurd rfl hk

/-- The unit of a tree has the names that are read off it. -/
theorem reads_toUnit {cs : List Tree} (h : ∀ c ∈ cs, c.WellShaped) (path : String) :
    ((Tree.node none .program cs).toUnit path).Reads (.node none .program cs) where
  package := by
    rw [toUnit, package?_foldl_addTo]
    cases (List.filter _ _).getLast? <;> rfl
  imports := by
    rw [toUnit, imports_foldl_addTo]
    rfl
  annotations := by
    have hmark : Site.annotationName? = Mark.annotationName? ∘ Site.mark := by
      funext s
      cases s <;> rfl
    rw [hmark, ← List.filterMap_map, marks_sitesNodes, marks_toUnit h, visible_eq,
      List.filterMap_filterMap, ← List.filterMap_eq_map, List.filterMap_filter]
    refine List.filterMap_congr fun n _ => ?_
    rw [annotationName?_mark?]
    simp

end Tree

/-! ## Sources with other layout -/

/-- Two trees are the same but for the layout of their names, and for lines. -/
def Tree.Respelled (t t' : Tree) : Prop := t'.layUnit.still = t.layUnit.still

instance (t t' : Tree) : Decidable (t.Respelled t') := inferInstanceAs (Decidable (_ = _))

namespace SourceUnit

open Evaluator (standard)

/-- The qualified names of the annotations of a unit in source order. -/
def annotationNames (u : SourceUnit) : List String :=
  (sitesNodes u.nodes).filterMap fun s => s.annotationName?.map u.qualify

theorem annotationNames_flat (u : SourceUnit) : u.flat.annotationNames = u.annotationNames := by
  have hname : ∀ s : Site, s.flat.annotationName? = s.annotationName? := by
    rintro (_ | ⟨n, l, es⟩) <;> rfl
  simp only [annotationNames, u.sites_flat, List.filterMap_map, Function.comp_def, hname]
  rfl

/-- Two units have the same names, and scans of them find the same messages. -/
structure Agrees (u v : SourceUnit) : Prop where
  package : v.package? = u.package?
  imports : v.imports = u.imports
  qualify : ∀ name, v.qualify name = u.qualify name
  annotations : v.annotationNames = u.annotationNames
  messages : ∀ g, ∃ s s', u.scan g standard = .ok s ∧ v.scan g standard = .ok s' ∧
    ∀ k, s'.contains k = s.contains k

/-- Units that differ only in lines agree. -/
theorem agrees_of_flat {u v : SourceUnit} (h : v.flat = u.flat) : u.Agrees v where
  package := by
    show v.flat.package? = u.flat.package?
    rw [h]
  imports := by
    show v.flat.imports = u.flat.imports
    rw [h]
  qualify name := by
    show v.flat.qualify name = u.flat.qualify name
    rw [h]
  annotations := by rw [← annotationNames_flat, h, annotationNames_flat]
  messages g := by
    obtain ⟨s, hs⟩ := Scan.exists_scan Evaluator.exists_evaluate_standard u g
    obtain ⟨s', hs'⟩ := Scan.exists_scan Evaluator.exists_evaluate_standard v g
    obtain ⟨f, hf⟩ := Scan.exists_scan Evaluator.exists_evaluate_standard u.flat g
    refine ⟨s, s', hs, hs', fun k => ?_⟩
    rw [Bool.eq_iff_iff, ← Scan.contains_flat hs hf, ← Scan.contains_flat hs' (h ▸ hf)]

/-- For every source that can be read, the names of its unit are read off its
    tree, and what is read off a package declaration, a single-type import or an
    annotation is its identifiers with dots in between exactly if there is no
    comment in the name.

    The same tokens with anything else between them can be read as well, as the
    same tree apart from spacing. If the layout differs in names only and there
    are no comments in names, the units agree: annotations are resolved to the
    same names and the messages are the same. -/
theorem layout_of_names {path source : String} {u : SourceUnit}
    (h : parse path source = .ok u) :
    ∃ t, Source.parse source = .ok t ∧ u.Reads t ∧ (∀ n ∈ t.parts, n.Named) ∧
      ∀ source', Token.relaid (Token.ofSource source) (Token.ofSource source') = true →
        ∃ t' v, Source.parse source' = .ok t' ∧ parse path source' = .ok v ∧ t'.core = t.core ∧
          (t.Respelled t' → t.Uncommented → t'.Uncommented → u.Agrees v) := by
  obtain ⟨t, ht, rfl⟩ := parse_eq_ok_iff.1 h
  refine ⟨t, ht, ?_, Source.named_of_parse ht, fun source' hrelaid => ?_⟩
  · obtain ⟨cs, rfl, hshaped⟩ := Source.wellShaped_of_parse ht
    exact Tree.reads_toUnit hshaped path
  · obtain ⟨t', ht', hcore⟩ := Source.parse_relaid ht hrelaid
    refine ⟨t', t'.toUnit path, ht', parse_eq_ok_iff.2 ⟨t', ht', rfl⟩, hcore, ?_⟩
    intro hsame hplain hplain'
    refine agrees_of_flat ?_
    rw [← Source.toUnit_layUnit ht' hplain', ← Source.toUnit_layUnit ht hplain,
      ← Tree.toUnit_still, ← Tree.toUnit_still, hsame]

/-- A source with blanks and line breaks in its names. -/
def spacedSource : String :=
  "package a\n  . b ;\nimport p .\n  Tr;\n@ Tr(\"x\") @b.\n C class A \x7b\x7d"

/-- The same source without them. -/
def compactSource : String := "package a.b;\nimport p.Tr;\n@Tr(\"x\") @b.C class A \x7b\x7d"

theorem layout_of_names_sample : ∃ u v, parse "A.java" spacedSource = .ok u ∧
    parse "A.java" compactSource = .ok v ∧ u.Agrees v ∧ u.annotationNames = ["p.Tr", "b.C"] := by
  have hrelaid : Token.relaid (Token.ofSource spacedSource) (Token.ofSource compactSource) =
      true := by
    unfold spacedSource compactSource
    iterate 2 rewrite [Token.ofSource_ofList]
    decide +kernel
  have hfacts : ((Source.parse spacedSource).toOption.bind fun t =>
      (Source.parse compactSource).toOption.map fun t' =>
        decide (t.Respelled t' ∧ t.Uncommented ∧ t'.Uncommented ∧
          (t.toUnit "A.java").annotationNames = ["p.Tr", "b.C"])) = some true := by
    decide +kernel
  cases hparse : Source.parse spacedSource with
  | error line =>
    rw [hparse] at hfacts
    cases hfacts
  | ok tree =>
    have hunit : parse "A.java" spacedSource = .ok (tree.toUnit "A.java") :=
      parse_eq_ok_iff.2 ⟨tree, hparse, rfl⟩
    obtain ⟨t, ht, -, -, hother⟩ := layout_of_names hunit
    obtain ⟨t', v, ht', hv, -, hagrees⟩ := hother compactSource hrelaid
    rw [ht, ht'] at hfacts
    obtain ⟨hsame, hplain, hplain', hnames⟩ := of_decide_eq_true (Option.some.inj hfacts)
    cases hparse.symm.trans ht
    exact ⟨_, v, hunit, hv, hagrees hsame hplain hplain', hnames⟩

/-- A comment in an import becomes part of the name, and the message of an
    annotation that the import is for is lost. -/
theorem commented_import_lost :
    (parse "A.java" "import p.Tr;\n@Tr(\"x\") class A \x7b\x7d").toOption.map
        (fun u => (u.imports, u.annotationNames, ((u.scan ⟨[], [⟨"p.Tr", ["value"]⟩]⟩
          standard).toOption.map fun s => s.toList.map Message.key))) =
      some (["p.Tr"], ["p.Tr"], some [⟨"x", none⟩]) ∧
    (parse "A.java" "import p.Tr /* tags */;\n@Tr(\"x\") class A \x7b\x7d").toOption.map
        (fun u => (u.imports, u.annotationNames, ((u.scan ⟨[], [⟨"p.Tr", ["value"]⟩]⟩
          standard).toOption.map fun s => s.toList.map Message.key))) =
      some (["p.Tr/*tags*/"], ["Tr"], some []) := by
  decide +kernel

end SourceUnit

end MessageHarvest
