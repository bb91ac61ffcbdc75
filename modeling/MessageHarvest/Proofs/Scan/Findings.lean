import MessageHarvest.Proofs.Message.Merge
import MessageHarvest.Proofs.Outcome
import MessageHarvest.Proofs.Scan.Sites

/-! # What a scan finds

    A scan that succeeds finds exactly the messages that the rules ask for,
    wherever they stand in the source, and each on the line of its site.

    * `MatchingCall`, `MatchingAnnotation`: the places that the rules ask for,
      said without reference to how a unit is walked through.
    * `mem_findings_iff`: the findings of one site.
    * `scan_exact`: the occurrences in the store of a unit are those places,
      and nothing else is in it. -/

namespace MessageHarvest

/-- An expression has a text, and the text is not empty. -/
structure Evaluator.Denotes (E : Evaluator) (e : Expr) (t : String) : Prop where
  value : E.evaluate e = .ok (some (.text t))
  nonempty : t ≠ ""

/-! ## What the rules ask for -/

/-- The plural that a rule takes from the arguments of a call: none if the rule
    or the call has no such argument, and otherwise the text of it. -/
def MethodRule.Plural (r : MethodRule) (E : Evaluator) (args : List Expr) :
    Option String → Prop
  | none => ∀ i, r.pluralIndex = some i → args[i]? = none
  | some q => ∃ i e, r.pluralIndex = some i ∧ args[i]? = some e ∧ E.Denotes e q

/-- The key that a rule takes from the arguments of a call. -/
def MethodRule.Takes (r : MethodRule) (E : Evaluator) (args : List Expr) (k : Message.Key) : Prop :=
  (∃ e, args[r.singularIndex]? = some e ∧ E.Denotes e k.singular) ∧ r.Plural E args k.plural

/-- The key that a rule takes from an annotation, in the first element of one
    of its fields. -/
def AnnotationRule.Takes (r : AnnotationRule) (E : Evaluator) (a : Annotation)
    (k : Message.Key) : Prop :=
  k.plural = none ∧
    ∃ f ∈ r.fields, ∃ v e, a.First f v ∧ v.Item e ∧ E.Denotes e k.singular

/-- A call on a line whose rule takes a key from it. -/
def MatchingCall (u : SourceUnit) (g : Registry) (E : Evaluator) (k : Message.Key)
    (line : Nat) : Prop :=
  ∃ method receiver args rule, u.Holds (.expr (.call line method receiver args)) ∧
    g.methodRule? method = some rule ∧ rule.Takes E args k

/-- An annotation on a line whose rule takes a key from it. -/
def MatchingAnnotation (u : SourceUnit) (g : Registry) (E : Evaluator) (k : Message.Key)
    (line : Nat) : Prop :=
  ∃ a rule, u.Holds (.annotated a) ∧ a.line = line ∧
    g.annotationRule? (u.qualify a.name) = some rule ∧ rule.Takes E a k

namespace Scan

variable {E : Evaluator} {g : Registry} {u : SourceUnit}

/-! ## Constant texts -/

theorem text?_eq_some_iff {e : Expr} {t : String} :
    text? E e = .ok (some t) ↔ E.Denotes e t := by
  unfold text? Evaluator.evaluateText
  rw [map_eq_ok_iff]
  constructor
  · rintro ⟨x, hx, ht⟩
    obtain ⟨v, hv, rfl⟩ := map_eq_ok_iff.1 hx
    obtain ⟨ht, hne⟩ := Option.filter_eq_some_iff.1 ht
    obtain ⟨v, rfl, ht⟩ := Option.bind_eq_some_iff.1 ht
    cases v with
    | text t' =>
      cases ht
      exact ⟨hv, by simpa using hne⟩
    | _ => cases ht
  · rintro ⟨hv, hne⟩
    refine ⟨some t, map_eq_ok_iff.2 ⟨_, hv, rfl⟩, ?_⟩
    exact Option.filter_eq_some_iff.2 ⟨rfl, by simpa using hne⟩

/-! ## Calls -/

/-- The plural argument of a call, if the rule and the call have one. -/
theorem bind_pluralIndex_eq_none_iff {r : MethodRule} {args : List Expr} :
    (r.pluralIndex.bind fun i => args[i]?) = none ↔ r.Plural E args none := by
  unfold MethodRule.Plural
  rw [Option.bind_eq_none_iff]

/-- A call is found with the key that the rule takes from it. -/
theorem callFinding?_eq_some_iff {r : MethodRule} {line : Nat} {args : List Expr} {f : Finding} :
    callFinding? E r line args = .ok (some f) ↔ f.line = line ∧ r.Takes E args f.key := by
  obtain ⟨⟨singular, plural⟩, line'⟩ := f
  unfold callFinding? MethodRule.Takes
  cases harg : args[r.singularIndex]? with
  | none => simp [pure, Except.pure]
  | some e =>
    simp only [Option.some.injEq, exists_eq_left']
    rw [bind_eq_ok_iff]
    constructor
    · rintro ⟨t, ht, h⟩
      cases t with
      | none => cases h
      | some t =>
        have hsingular := text?_eq_some_iff.1 ht
        cases hplural : r.pluralIndex.bind fun i => args[i]? with
        | none =>
          simp only [hplural] at h
          cases h
          exact ⟨rfl, hsingular, bind_pluralIndex_eq_none_iff.1 hplural⟩
        | some e' =>
          simp only [hplural] at h
          obtain ⟨i, hi, hargs⟩ := Option.bind_eq_some_iff.1 hplural
          obtain ⟨q, hq, h⟩ := bind_eq_ok_iff.1 h
          cases q with
          | none => cases h
          | some q =>
            cases h
            exact ⟨rfl, hsingular, i, e', hi, hargs, text?_eq_some_iff.1 hq⟩
    · rintro ⟨rfl, hsingular, hplural⟩
      refine ⟨some singular, text?_eq_some_iff.2 hsingular, ?_⟩
      cases plural with
      | none =>
        simp only [bind_pluralIndex_eq_none_iff.2 hplural]
        rfl
      | some q =>
        obtain ⟨i, e', hi, hargs, hq⟩ := hplural
        have hbind : (r.pluralIndex.bind fun i => args[i]?) = some e' :=
          Option.bind_eq_some_iff.2 ⟨i, hi, hargs⟩
        simp only [hbind]
        exact bind_eq_ok_iff.2 ⟨some q, text?_eq_some_iff.2 hq, rfl⟩

/-! ## Annotations -/

theorem mem_annotationTexts_iff {r : AnnotationRule} {a : Annotation} {e : Expr} :
    e ∈ annotationTexts r a ↔ ∃ f ∈ r.fields, ∃ v, a.First f v ∧ v.Item e := by
  unfold annotationTexts
  rw [List.mem_flatMap]
  refine exists_congr fun f => and_congr_right fun _ => ?_
  cases hv : a.element? f with
  | none =>
    constructor
    · intro h; cases h
    · rintro ⟨v, hfirst, -⟩
      rw [element?_eq_some_iff.2 hfirst] at hv
      cases hv
  | some v =>
    have hfirst := element?_eq_some_iff.1 hv
    constructor
    · intro h
      exact ⟨v, hfirst, ElementValue.mem_texts_iff.1 h⟩
    · rintro ⟨v', hfirst', hitem⟩
      rw [element?_eq_some_iff.2 hfirst'] at hv
      cases hv
      exact ElementValue.mem_texts_iff.2 hitem

/-- An annotation is found with the keys that the rule takes from it. -/
theorem mem_annotationFindings_iff {r : AnnotationRule} {a : Annotation} {fs : List Finding}
    (h : annotationFindings E r a = .ok fs) {f : Finding} :
    f ∈ fs ↔ f.line = a.line ∧ r.Takes E a f.key := by
  obtain ⟨ts, hts, h⟩ := bind_eq_ok_iff.1 h
  cases h
  obtain ⟨⟨singular, plural⟩, line⟩ := f
  rw [List.mem_filterMap]
  constructor
  · rintro ⟨t, ht, hf⟩
    obtain ⟨s, rfl, hf⟩ := Option.map_eq_some_iff.1 hf
    cases hf
    obtain ⟨e, he, htext⟩ := (mem_of_mapM hts).1 ht
    obtain ⟨field, hfield, v, hfirst, hitem⟩ := mem_annotationTexts_iff.1 he
    exact ⟨rfl, rfl, field, hfield, v, e, hfirst, hitem, text?_eq_some_iff.1 htext⟩
  · rintro ⟨rfl, hplural, field, hfield, v, e, hfirst, hitem, hdenotes⟩
    have he : e ∈ annotationTexts r a :=
      mem_annotationTexts_iff.2 ⟨field, hfield, v, hfirst, hitem⟩
    refine ⟨some singular, (mem_of_mapM hts).2 ⟨e, he, text?_eq_some_iff.2 hdenotes⟩, ?_⟩
    obtain rfl : plural = none := hplural
    rfl

/-! ## Sites -/

/-- What the rules ask of a site. -/
def Matches (g : Registry) (E : Evaluator) (u : SourceUnit) (f : Finding) : Site → Prop
  | .call line method args =>
    f.line = line ∧ ∃ rule, g.methodRule? method = some rule ∧ rule.Takes E args f.key
  | .annotated a =>
    f.line = a.line ∧ ∃ rule, g.annotationRule? (u.qualify a.name) = some rule ∧
      rule.Takes E a f.key

theorem mem_findings_iff {site : Site} {fs : List Finding} (h : findings g E u site = .ok fs)
    {f : Finding} : f ∈ fs ↔ Matches g E u f site := by
  cases site with
  | call line method args =>
    unfold findings at h
    simp only [Matches]
    cases hrule : g.methodRule? method with
    | none =>
      simp only [hrule] at h
      cases h
      simp
    | some r =>
      simp only [hrule] at h
      obtain ⟨found, hfound, rfl⟩ := map_eq_ok_iff.1 h
      simp only [Option.some.injEq, exists_eq_left', Option.mem_toList]
      rw [← callFinding?_eq_some_iff, hfound]
      simp
  | annotated a =>
    unfold findings at h
    simp only [Matches]
    cases hrule : g.annotationRule? (u.qualify a.name) with
    | none =>
      simp only [hrule] at h
      cases h
      simp
    | some r =>
      simp only [hrule] at h
      simp only [Option.some.injEq, exists_eq_left']
      exact mem_annotationFindings_iff h

/-- The sites that match are matching calls and matching annotations. -/
theorem exists_matches_iff {f : Finding} :
    (∃ site ∈ sitesNodes u.nodes, Matches g E u f site) ↔
      MatchingCall u g E f.key f.line ∨ MatchingAnnotation u g E f.key f.line := by
  constructor
  · rintro ⟨site, hsite, hmatch⟩
    obtain ⟨p, hp, hsite⟩ := mem_sites_iff.1 hsite
    unfold Piece.site? at hsite
    split at hsite
    · next l m r as =>
      cases hsite
      obtain ⟨rfl, rule, hrule, htakes⟩ := hmatch
      exact .inl ⟨m, r, as, rule, hp, hrule, htakes⟩
    · next a =>
      cases hsite
      obtain ⟨hline, rule, hrule, htakes⟩ := hmatch
      exact .inr ⟨a, rule, hp, hline.symm, hrule, htakes⟩
    · cases hsite
  · rintro (⟨m, r, as, rule, hp, hrule, htakes⟩ | ⟨a, rule, hp, hline, hrule, htakes⟩)
    · exact ⟨.call f.line m as, mem_sites_iff.2 ⟨_, hp, rfl⟩, rfl, rule, hrule, htakes⟩
    · exact ⟨.annotated a, mem_sites_iff.2 ⟨_, hp, rfl⟩, hline.symm, rule, hrule, htakes⟩

/-- What a rule takes has no empty text. -/
theorem nonempty_of_matching {k : Message.Key} {line : Nat}
    (h : MatchingCall u g E k line ∨ MatchingAnnotation u g E k line) :
    k.singular ≠ "" ∧ k.plural ≠ some "" := by
  rcases h with ⟨_, _, _, _, _, _, ⟨_, _, hsingular⟩, hplural⟩ |
    ⟨_, _, _, _, _, hplural, _, _, _, _, _, _, hsingular⟩
  · refine ⟨hsingular.nonempty, fun hempty => ?_⟩
    rw [hempty] at hplural
    obtain ⟨_, _, _, _, hdenotes⟩ := hplural
    exact hdenotes.nonempty rfl
  · exact ⟨hsingular.nonempty, by simp [hplural]⟩

/-! ## Units -/

theorem recordAll_eq (path : String) (fs : List Finding) :
    recordAll path fs = Store.ofRecords (fs.map fun f => (f.key, ⟨path, f.line⟩)) := by
  unfold recordAll Store.ofRecords
  rw [List.foldl_map]

/-- A scan records its findings. -/
theorem scan_eq_ok {s : Store} (h : u.scan g E = .ok s) :
    ∃ fs : List Finding,
      s = Store.ofRecords (fs.map fun f => (f.key, ⟨u.path, f.line⟩)) ∧
      ∀ f, f ∈ fs ↔ MatchingCall u g E f.key f.line ∨ MatchingAnnotation u g E f.key f.line := by
  obtain ⟨fss, hfss, h⟩ := bind_eq_ok_iff.1 h
  cases h
  refine ⟨fss.flatten, recordAll_eq u.path fss.flatten, fun f => ?_⟩
  rw [← exists_matches_iff, List.mem_flatten]
  constructor
  · rintro ⟨fs, hfs, hf⟩
    obtain ⟨site, hsite, hfindings⟩ := (mem_of_mapM hfss).1 hfs
    exact ⟨site, hsite, (mem_findings_iff hfindings).1 hf⟩
  · rintro ⟨site, hsite, hmatch⟩
    obtain ⟨fs, hfindings⟩ := exists_of_mapM hfss site hsite
    exact ⟨fs, (mem_of_mapM hfss).2 ⟨site, hsite, hfindings⟩, (mem_findings_iff hfindings).2 hmatch⟩

end Scan

/-- A scan that succeeds finds what the rules ask for and nothing else: a key
    occurs at a place if and only if the place is in the file of the unit and a
    call or an annotation there, anywhere in the unit, has the key. Every
    message is without a position, occurs somewhere and has no empty text. -/
theorem scan_exact {u : SourceUnit} {g : Registry} {E : Evaluator} {s : Store}
    (h : u.scan g E = .ok s) :
    (∀ k o, s.Occurs k o ↔
      o.path = u.path ∧ (MatchingCall u g E k o.line ∨ MatchingAnnotation u g E k o.line)) ∧
    ∀ m ∈ s.toList, m.position = .unordered ∧ m.occurrences.toList ≠ [] ∧
      m.key.singular ≠ "" ∧ m.key.plural ≠ some "" := by
  obtain ⟨fs, rfl, hfs⟩ := Scan.scan_eq_ok h
  have hoccurs : ∀ k o, (Store.ofRecords (fs.map fun f => (f.key, ⟨u.path, f.line⟩))).Occurs k o ↔
      o.path = u.path ∧ (MatchingCall u g E k o.line ∨ MatchingAnnotation u g E k o.line) := by
    intro k o
    rw [Store.occurs_ofRecords, List.mem_map]
    constructor
    · rintro ⟨f, hf, e⟩
      cases e
      exact ⟨rfl, (hfs f).1 hf⟩
    · rintro ⟨hpath, hmatch⟩
      obtain ⟨path, line⟩ := o
      obtain rfl : path = u.path := hpath
      exact ⟨⟨k, line⟩, (hfs ⟨k, line⟩).2 hmatch, rfl⟩
  refine ⟨hoccurs, fun m hm => ?_⟩
  -- a key was recorded at some place, so its message occurs there
  obtain ⟨o, ho⟩ := Store.contains_ofRecords.1 (Store.contains_of_mem hm)
  have hplace := Store.occurs_ofRecords.2 ho
  have hmem := (Store.occurs_of_find? (Store.find?_eq_some_iff.2 ⟨hm, rfl⟩)).1 hplace
  obtain ⟨hsingular, hplural⟩ := Scan.nonempty_of_matching ((hoccurs m.key o).1 hplace).2
  exact ⟨Store.unordered_ofRecords _ m hm, List.ne_nil_of_mem hmem, hsingular, hplural⟩

/-- A file with a call in a branch that is not taken and an annotation with
    several texts. -/
def sampleUnit : SourceUnit where
  path := "A.java"
  package? := some "p"
  imports := []
  nodes := [
    .annotated (.mk "Tr" 1 [.mk "value" (.array [
      .expr (.literal 1 (.text "title")), .expr (.name 1 "other"),
      .nested (.mk "Tr" 2 [.mk "text" (.expr (.literal 2 (.text "unseen")))])])]),
    .group "class_body" 3 [.expr (.conditional 4 (.literal 4 (.bool true)) (.literal 4 .null)
      (.call 5 "trn" none [.binary 5 .add (.literal 5 (.text "a")) (.literal 5 (.text "b")),
        .literal 6 (.text "abs")]))]]

/-- A rule for a method with a plural and one for an annotation. -/
def sampleRegistry : Registry where
  methods := [⟨"trn", 0, some 1⟩]
  annotations := [⟨"p.Tr", ["value"]⟩]

/-- What is found in `sampleUnit`. -/
def sampleStore : Store :=
  .ofRecords [(⟨"title", none⟩, ⟨"A.java", 1⟩), (⟨"ab", some "abs"⟩, ⟨"A.java", 5⟩)]

theorem scan_exact_sample :
    sampleUnit.scan sampleRegistry .standard = .ok sampleStore ∧
    (∀ k o, sampleStore.Occurs k o ↔ o.path = "A.java" ∧
      (MatchingCall sampleUnit sampleRegistry .standard k o.line ∨
        MatchingAnnotation sampleUnit sampleRegistry .standard k o.line)) ∧
    ∀ m ∈ sampleStore.toList, m.position = .unordered ∧ m.occurrences.toList ≠ [] ∧
      m.key.singular ≠ "" ∧ m.key.plural ≠ some "" := by
  have h : sampleUnit.scan sampleRegistry .standard = .ok sampleStore := by rfl
  exact ⟨h, scan_exact h⟩

end MessageHarvest
