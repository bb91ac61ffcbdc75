import MessageHarvest.Proofs.Constant.Extension
import MessageHarvest.Proofs.Scan.Extension

/-! # What is found does not depend on lines

    `flat` puts everything in a source file on the first line. Constant folding
    does not look at lines (`Evaluator.evaluate_flat`), and the rules ask the
    same of a site on whatever line it is (`Scan.matches_flat`). So a scan finds
    the same keys on whatever lines they stand (`Scan.contains_flat`). -/

namespace MessageHarvest

/-! ## Everything on one line -/

mutual

/-- An expression on the first line. -/
def Expr.flat : Expr → Expr
  | .literal _ v => .literal 1 v
  | .binary _ op a b => .binary 1 op a.flat b.flat
  | .unary _ op a => .unary 1 op a.flat
  | .conditional _ c a b => .conditional 1 c.flat a.flat b.flat
  | .cast _ t a => .cast 1 t a.flat
  | .name _ i => .name 1 i
  | .field _ a f => .field 1 a.flat f
  | .call _ m r as => .call 1 m (flatReceiver r) (flatExprs as)
  | .other _ k cs => .other 1 k (flatNodes cs)

/-- A receiver on the first line. -/
def flatReceiver : Option Expr → Option Expr
  | none => none
  | some e => some e.flat

/-- Expressions on the first line. -/
def flatExprs : List Expr → List Expr
  | [] => []
  | e :: es => e.flat :: flatExprs es

/-- Nodes on the first line. -/
def flatNodes : List Node → List Node
  | [] => []
  | n :: ns => n.flat :: flatNodes ns

/-- A node on the first line. -/
def Node.flat : Node → Node
  | .expr e => .expr e.flat
  | .annotated a => .annotated a.flat
  | .group k _ cs => .group k 1 (flatNodes cs)

/-- An annotation on the first line. -/
def Annotation.flat : Annotation → Annotation
  | .mk n _ es => .mk n 1 (flatElements es)

/-- Elements on the first line. -/
def flatElements : List Element → List Element
  | [] => []
  | e :: es => e.flat :: flatElements es

/-- An element on the first line. -/
def Element.flat : Element → Element
  | .mk n v => .mk n v.flat

/-- An element value on the first line. -/
def ElementValue.flat : ElementValue → ElementValue
  | .expr e => .expr e.flat
  | .array vs => .array (flatValues vs)
  | .nested a => .nested a.flat

/-- Element values on the first line. -/
def flatValues : List ElementValue → List ElementValue
  | [] => []
  | v :: vs => v.flat :: flatValues vs

end

theorem flatReceiver_eq (r : Option Expr) : flatReceiver r = r.map Expr.flat := by
  cases r <;> rfl

theorem flatExprs_eq (es : List Expr) : flatExprs es = es.map Expr.flat := by
  induction es with
  | nil => rfl
  | cons e es ih => rw [flatExprs, ih, List.map_cons]

theorem flatNodes_eq (ns : List Node) : flatNodes ns = ns.map Node.flat := by
  induction ns with
  | nil => rfl
  | cons n ns ih => rw [flatNodes, ih, List.map_cons]

theorem flatElements_eq (es : List Element) : flatElements es = es.map Element.flat := by
  induction es with
  | nil => rfl
  | cons e es ih => rw [flatElements, ih, List.map_cons]

theorem flatValues_eq (vs : List ElementValue) : flatValues vs = vs.map ElementValue.flat := by
  induction vs with
  | nil => rfl
  | cons v vs ih => rw [flatValues, ih, List.map_cons]

/-- A site on the first line. -/
def Site.flat : Site → Site
  | .call _ m as => .call 1 m (flatExprs as)
  | .annotated a => .annotated a.flat

/-- A unit on the first line. -/
def SourceUnit.flat (u : SourceUnit) : SourceUnit := { u with nodes := u.nodes.map Node.flat }

/-! ## Sites -/

mutual

theorem Expr.sites_flat (e : Expr) : e.flat.sites = e.sites.map Site.flat := by
  match e with
  | .literal .. | .name .. => rfl
  | .binary _ _ a b => simp [Expr.flat, Expr.sites, a.sites_flat, b.sites_flat]
  | .unary _ _ a => simp [Expr.flat, Expr.sites, a.sites_flat]
  | .conditional _ c a b =>
    simp [Expr.flat, Expr.sites, c.sites_flat, a.sites_flat, b.sites_flat]
  | .cast _ _ a => simp [Expr.flat, Expr.sites, a.sites_flat]
  | .field _ a _ => simp [Expr.flat, Expr.sites, a.sites_flat]
  | .call _ _ r as =>
    simp [Expr.flat, Expr.sites, sitesReceiver_flat r, sitesExprs_flat as, Site.flat]
  | .other _ _ cs => simp [Expr.flat, Expr.sites, sitesNodes_flat cs]

theorem sitesReceiver_flat (r : Option Expr) :
    sitesReceiver (flatReceiver r) = (sitesReceiver r).map Site.flat := by
  match r with
  | none => rfl
  | some e => simp [flatReceiver, sitesReceiver, e.sites_flat]

theorem sitesExprs_flat (es : List Expr) :
    sitesExprs (flatExprs es) = (sitesExprs es).map Site.flat := by
  match es with
  | [] => rfl
  | e :: es => simp [flatExprs, sitesExprs, e.sites_flat, sitesExprs_flat es]

theorem sitesNodes_flat (ns : List Node) :
    sitesNodes (flatNodes ns) = (sitesNodes ns).map Site.flat := by
  match ns with
  | [] => rfl
  | n :: ns => simp [flatNodes, sitesNodes, n.sites_flat, sitesNodes_flat ns]

theorem Node.sites_flat (n : Node) : n.flat.sites = n.sites.map Site.flat := by
  match n with
  | .expr e => simp [Node.flat, Node.sites, e.sites_flat]
  | .annotated a => simp [Node.flat, Node.sites, a.sites_flat]
  | .group _ _ cs => simp [Node.flat, Node.sites, sitesNodes_flat cs]

theorem Annotation.sites_flat (a : Annotation) : a.flat.sites = a.sites.map Site.flat := by
  match a with
  | .mk _ _ es => simp [sitesElements_flat es, Site.flat, Annotation.flat, Annotation.sites]

theorem sitesElements_flat (es : List Element) :
    sitesElements (flatElements es) = (sitesElements es).map Site.flat := by
  match es with
  | [] => rfl
  | e :: es => simp [flatElements, sitesElements, e.sites_flat, sitesElements_flat es]

theorem Element.sites_flat (e : Element) : e.flat.sites = e.sites.map Site.flat := by
  match e with
  | .mk _ v => simp [Element.flat, Element.sites, v.sites_flat]

theorem ElementValue.sites_flat (v : ElementValue) : v.flat.sites = v.sites.map Site.flat := by
  match v with
  | .expr e => simp [ElementValue.flat, ElementValue.sites, e.sites_flat]
  | .array vs => simp [ElementValue.flat, ElementValue.sites, sitesValues_flat vs]
  | .nested a => simp [ElementValue.flat, ElementValue.sites, a.sites_flat]

theorem sitesValues_flat (vs : List ElementValue) :
    sitesValues (flatValues vs) = (sitesValues vs).map Site.flat := by
  match vs with
  | [] => rfl
  | v :: vs => simp [flatValues, sitesValues, v.sites_flat, sitesValues_flat vs]

end

theorem SourceUnit.sites_flat (u : SourceUnit) :
    sitesNodes u.flat.nodes = (sitesNodes u.nodes).map Site.flat := by
  rw [← sitesNodes_flat, flatNodes_eq]
  rfl

mutual

theorem ElementValue.texts_flat (v : ElementValue) : v.flat.texts = v.texts.map Expr.flat := by
  match v with
  | .expr e => rfl
  | .array vs => simp [ElementValue.flat, ElementValue.texts, textsOf_flat vs]
  | .nested a => rfl

theorem textsOf_flat (vs : List ElementValue) :
    textsOf (flatValues vs) = (textsOf vs).map Expr.flat := by
  match vs with
  | [] => rfl
  | v :: vs => simp [flatValues, textsOf, v.texts_flat, textsOf_flat vs]

end

theorem Annotation.name_flat (a : Annotation) : a.flat.name = a.name := by
  cases a; rfl

theorem Annotation.element?_flat (a : Annotation) (f : String) :
    a.flat.element? f = (a.element? f).map ElementValue.flat := by
  obtain ⟨n, l, es⟩ := a
  have hname : ∀ e : Element, e.flat.name = e.name := by rintro ⟨n, v⟩; rfl
  have hvalue : ∀ e : Element, e.flat.value = e.value.flat := by rintro ⟨n, v⟩; rfl
  unfold Annotation.element?
  simp only [hname, hvalue, Annotation.flat, Annotation.elements, flatElements_eq,
    List.find?_map, Option.map_map, Function.comp_def]

/-! ## Constants -/

namespace Evaluator

/-- Constant folding does not look at lines. -/
theorem evaluate_flat (e : Expr) : standard.evaluate e.flat = standard.evaluate e := by
  rw [local_standard.evaluate_eq, local_standard.evaluate_eq e]
  match e with
  | .literal .. => rfl
  | .binary l op a b =>
    show Handler.binary _ (.binary 1 op a.flat b.flat) = Handler.binary _ (.binary l op a b)
    simp only [Handler.binary, evaluate_flat a, evaluate_flat b]
  | .unary l op a =>
    show Handler.unary _ (.unary 1 op a.flat) = Handler.unary _ (.unary l op a)
    simp only [Handler.unary, evaluate_flat a]
  | .conditional l c a b =>
    show Handler.conditional _ (.conditional 1 c.flat a.flat b.flat) =
      Handler.conditional _ (.conditional l c a b)
    simp only [Handler.conditional, evaluate_flat c, evaluate_flat a, evaluate_flat b]
  | .cast l t a =>
    show Handler.cast _ (.cast 1 t a.flat) = Handler.cast _ (.cast l t a)
    simp only [Handler.cast, evaluate_flat a]
  | .name .. | .field .. | .call .. | .other .. => rfl

theorem denotes_flat {e : Expr} {t : String} :
    standard.Denotes e.flat t ↔ standard.Denotes e t :=
  ⟨fun ⟨h, hne⟩ => ⟨evaluate_flat e ▸ h, hne⟩, fun ⟨h, hne⟩ => ⟨(evaluate_flat e).trans h, hne⟩⟩

end Evaluator

/-! ## What the rules ask for -/

open Evaluator (standard denotes_flat)

theorem MethodRule.takes_flat {r : MethodRule} {args : List Expr} {k : Message.Key} :
    r.Takes standard (flatExprs args) k ↔ r.Takes standard args k := by
  obtain ⟨singular, plural⟩ := k
  cases plural with
  | none => simp [Takes, Plural, flatExprs_eq, denotes_flat]
  | some q => simp [Takes, Plural, flatExprs_eq, denotes_flat]

theorem AnnotationRule.takes_iff {r : AnnotationRule} {E : Evaluator} {a : Annotation}
    {k : Message.Key} : r.Takes E a k ↔
      k.plural = none ∧ ∃ e ∈ Scan.annotationTexts r a, E.Denotes e k.singular := by
  refine and_congr_right fun _ => ?_
  simp only [Scan.mem_annotationTexts_iff]
  constructor
  · rintro ⟨f, hf, v, e, hfirst, hitem, hdenotes⟩
    exact ⟨e, ⟨f, hf, v, hfirst, hitem⟩, hdenotes⟩
  · rintro ⟨e, ⟨f, hf, v, hfirst, hitem⟩, hdenotes⟩
    exact ⟨f, hf, v, e, hfirst, hitem, hdenotes⟩

theorem AnnotationRule.takes_flat {r : AnnotationRule} {a : Annotation} {k : Message.Key} :
    r.Takes standard a.flat k ↔ r.Takes standard a k := by
  have htexts : Scan.annotationTexts r a.flat = (Scan.annotationTexts r a).map Expr.flat := by
    unfold Scan.annotationTexts
    rw [List.map_flatMap]
    refine List.flatMap_congr fun f _ => ?_
    rw [a.element?_flat]
    cases a.element? f with
    | none => rfl
    | some v => exact v.texts_flat
  simp [takes_iff, htexts, denotes_flat]

namespace Scan

variable {g : Registry} {u : SourceUnit} {k : Message.Key}

/-- The rules ask the same of a site on whatever line it is. -/
theorem matches_flat {site : Site} :
    (∃ line, Matches g standard u.flat ⟨k, line⟩ site.flat) ↔
      ∃ line, Matches g standard u ⟨k, line⟩ site := by
  cases site with
  | call l m args => simp [Site.flat, Matches, MethodRule.takes_flat]
  | annotated a =>
    have hname : u.flat.qualify a.flat.name = u.qualify a.name := by rw [a.name_flat]; rfl
    simp [Site.flat, Matches, AnnotationRule.takes_flat, hname]

/-- The keys in the store of a scan are those that the rules take from sites. -/
theorem contains_iff {E : Evaluator} {s : Store} (h : u.scan g E = .ok s) :
    s.contains k ↔ ∃ site ∈ sitesNodes u.nodes, ∃ line, Matches g E u ⟨k, line⟩ site := by
  obtain ⟨fs, rfl, hfs⟩ := scan_eq_ok h
  rw [Store.contains_ofRecords]
  constructor
  · rintro ⟨o, ho⟩
    obtain ⟨f, hf, e⟩ := List.mem_map.1 ho
    cases e
    obtain ⟨site, hsite, hmatch⟩ := exists_matches_iff.2 ((hfs f).1 hf)
    exact ⟨site, hsite, f.line, hmatch⟩
  · rintro ⟨site, hsite, line, hmatch⟩
    have hf := (hfs ⟨k, line⟩).2 (exists_matches_iff.1 ⟨site, hsite, hmatch⟩)
    exact ⟨_, List.mem_map.2 ⟨_, hf, rfl⟩⟩

/-- A scan finds the same keys on whatever lines they stand. -/
theorem contains_flat {s s' : Store} (h : u.scan g standard = .ok s)
    (h' : u.flat.scan g standard = .ok s') : s'.contains k ↔ s.contains k := by
  rw [contains_iff h, contains_iff h', u.sites_flat]
  constructor
  · rintro ⟨_, hflat, hmatch⟩
    obtain ⟨site, hsite, rfl⟩ := List.mem_map.1 hflat
    exact ⟨site, hsite, matches_flat.1 hmatch⟩
  · rintro ⟨site, hsite, hmatch⟩
    exact ⟨site.flat, List.mem_map_of_mem hsite, matches_flat.2 hmatch⟩

end Scan

end MessageHarvest
