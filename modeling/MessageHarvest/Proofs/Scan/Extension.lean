import MessageHarvest.Proofs.Constant.Extension
import MessageHarvest.Proofs.Scan.Findings

/-! # Scans that do not fail, and scans with more handlers

    A scan fails only where an evaluation fails, and what it finds only grows
    with the values that its evaluator gives.

    * `evaluation_safe`: no evaluation with the standard evaluator fails, so no
      scan with it does.
    * `extended_conservative`: with handlers for further kinds of expressions,
      what was constant has the value that it had, and what was found is still
      found. -/

namespace MessageHarvest

namespace Scan

/-! ## Scans that do not fail -/

section Total

variable {E : Evaluator} (hE : ∀ e, ∃ o, E.evaluate e = .ok o)

include hE

theorem exists_text? (e : Expr) : ∃ t, text? E e = .ok t := exists_map (exists_map (hE e))

theorem exists_callFinding? (r : MethodRule) (line : Nat) (args : List Expr) :
    ∃ f, callFinding? E r line args = .ok f := by
  unfold callFinding?
  split
  · exact ⟨none, rfl⟩
  · next e _ =>
    apply exists_bind (exists_text? hE e)
    intro singular
    split
    · exact ⟨none, rfl⟩
    · split
      · exact ⟨_, rfl⟩
      · next e' _ =>
        apply exists_bind (exists_text? hE e')
        intro plural
        cases plural with
        | none => exact ⟨none, rfl⟩
        | some plural => exact ⟨_, rfl⟩

theorem exists_annotationFindings (r : AnnotationRule) (a : Annotation) :
    ∃ fs, annotationFindings E r a = .ok fs :=
  exists_bind (exists_mapM fun e _ => exists_text? hE e) fun _ => ⟨_, rfl⟩

theorem exists_findings (g : Registry) (u : SourceUnit) (site : Site) :
    ∃ fs, findings g E u site = .ok fs := by
  cases site with
  | call line method args =>
    cases hrule : g.methodRule? method with
    | none => exact ⟨[], by simp only [findings, hrule]⟩
    | some r =>
      simp only [findings, hrule]
      exact exists_map (exists_callFinding? hE r line args)
  | annotated a =>
    cases hrule : g.annotationRule? (u.qualify a.name) with
    | none => exact ⟨[], by simp only [findings, hrule]⟩
    | some r =>
      simp only [findings, hrule]
      exact exists_annotationFindings hE r a

/-- A scan succeeds if no evaluation fails. -/
theorem exists_scan (u : SourceUnit) (g : Registry) : ∃ s, u.scan g E = .ok s :=
  exists_bind (exists_mapM fun site _ => exists_findings hE g u site) fun _ => ⟨_, rfl⟩

end Total

end Scan

theorem Evaluator.exists_evaluate_standard (e : Expr) : ∃ o, standard.evaluate e = .ok o := by
  obtain ⟨o, ho, -⟩ := run_safe e.depth e
  exact ⟨o, ho⟩

/-- With the standard evaluator nothing fails: no expression, to any number of
    levels and so no part of one, no operator on any operands, and no scan. Each
    integer that comes out is in the range of its width, since the 64 bits of a
    result are reduced to that width. -/
theorem evaluation_safe :
    (∀ e, (Evaluator.standard.evaluate e).Safe) ∧
    (∀ n e, (Evaluator.standard.run n e).Safe) ∧
    (∀ op x y, (Operator.applyBinary op x y).Safe) ∧
    (∀ op x, (Operator.applyUnary op x).Safe) ∧
    (∀ w v, (IntValue.ofInt64 w v).toInt64.toInt = w.signed v.toInt) ∧
    ∀ (u : SourceUnit) (g : Registry), ∃ s, u.scan g .standard = .ok s := by
  refine ⟨fun e => Evaluator.run_safe e.depth e, Evaluator.run_safe,
    fun op x y => Folded.compatible_safe.of_folds (applyBinary_spec op x y),
    fun op x => Folded.compatible_safe.of_folds (applyUnary_spec op x), ?_,
    Scan.exists_scan Evaluator.exists_evaluate_standard⟩
  intro w v
  rw [IntValue.toInt_toInt64, IntValue.ofInt64_eq, IntValue.toInt_ofInt]

/-! ## Scans with more handlers -/

/-- The keys and the occurrences of a store are in another one. -/
structure Store.Within (s t : Store) : Prop where
  contains : ∀ k, s.contains k = true → t.contains k = true
  occurs : ∀ k o, s.Occurs k o → t.Occurs k o

theorem Store.within_ofRecords {rs rs' : List (Message.Key × Occurrence)}
    (h : ∀ r ∈ rs, r ∈ rs') : (Store.ofRecords rs).Within (.ofRecords rs') where
  contains k hk := by
    obtain ⟨o, ho⟩ := contains_ofRecords.1 hk
    exact contains_ofRecords.2 ⟨o, h _ ho⟩
  occurs k o ho := occurs_ofRecords.2 (h _ (occurs_ofRecords.1 ho))

/-- What the first evaluator gives the second one gives too: the values of
    expressions, and in scans the messages with their places. -/
structure Evaluator.Conservative (E F : Evaluator) : Prop where
  value : ∀ e v, E.evaluate e = .ok (some v) → F.evaluate e = .ok (some v)
  scan : ∀ (u : SourceUnit) (g : Registry) t, u.scan g F = .ok t →
    ∃ s, u.scan g E = .ok s ∧ s.Within t

namespace Scan

section Grows

variable {E F : Evaluator} (h : ∀ e, (E.evaluate e).Keeps (F.evaluate e))

include h

theorem denotes_mono {e : Expr} {t : String} (he : E.Denotes e t) : F.Denotes e t :=
  ⟨h e _ he.value, he.nonempty⟩

/-- Whether a call has a plural is seen without evaluation, so a call that had
    no plural does not get one. -/
theorem methodRule_takes_mono {r : MethodRule} {args : List Expr} {k : Message.Key}
    (hk : r.Takes E args k) : r.Takes F args k := by
  obtain ⟨⟨e, harg, he⟩, hplural⟩ := hk
  refine ⟨⟨e, harg, denotes_mono h he⟩, ?_⟩
  cases hk : k.plural with
  | none =>
    rw [hk] at hplural
    exact hplural
  | some q =>
    rw [hk] at hplural
    obtain ⟨i, e', hi, harg', he'⟩ := hplural
    exact ⟨i, e', hi, harg', denotes_mono h he'⟩

theorem annotationRule_takes_mono {r : AnnotationRule} {a : Annotation} {k : Message.Key}
    (hk : r.Takes E a k) : r.Takes F a k := by
  obtain ⟨hplural, f, hf, v, e, hfirst, hitem, he⟩ := hk
  exact ⟨hplural, f, hf, v, e, hfirst, hitem, denotes_mono h he⟩

theorem matching_mono {u : SourceUnit} {g : Registry} {k : Message.Key} {line : Nat}
    (hm : MatchingCall u g E k line ∨ MatchingAnnotation u g E k line) :
    MatchingCall u g F k line ∨ MatchingAnnotation u g F k line := by
  rcases hm with ⟨method, receiver, args, rule, hp, hrule, hk⟩ | ⟨a, rule, hp, hline, hrule, hk⟩
  · exact .inl ⟨method, receiver, args, rule, hp, hrule, methodRule_takes_mono h hk⟩
  · exact .inr ⟨a, rule, hp, hline, hrule, annotationRule_takes_mono h hk⟩

/-- What is found with fewer values is found with more. -/
theorem within_of_scan {u : SourceUnit} {g : Registry} {s t : Store} (hs : u.scan g E = .ok s)
    (ht : u.scan g F = .ok t) : s.Within t := by
  obtain ⟨fs, rfl, hfs⟩ := scan_eq_ok hs
  obtain ⟨fs', rfl, hfs'⟩ := scan_eq_ok ht
  apply Store.within_ofRecords
  intro r hr
  obtain ⟨f, hf, rfl⟩ := List.mem_map.1 hr
  have hmatch := matching_mono h ((hfs f).1 hf)
  exact List.mem_map.2 ⟨f, (hfs' f).2 hmatch, rfl⟩

end Grows

end Scan

theorem Evaluator.conservative_of_keeps {F : Evaluator}
    (h : ∀ e, (standard.evaluate e).Keeps (F.evaluate e)) : Conservative standard F where
  value := h
  scan u g t ht := by
    obtain ⟨s, hs⟩ := Scan.exists_scan exists_evaluate_standard u g
    exact ⟨s, hs, Scan.within_of_scan h hs ht⟩

/-- Handlers for kinds of expressions that have none change no value and lose no
    message. A handler may evaluate any expression, which an evaluator does to a
    limited number of levels; the same holds of every evaluator `F` that goes by
    these handlers without a limit. -/
theorem extended_conservative {hs : List (Expr.Kind × Handler)}
    (hfree : ∀ p ∈ hs, Evaluator.standard.handler p.1 = none) :
    Evaluator.Conservative .standard (.extended hs) ∧
    ∀ F : Evaluator, (∀ e, F.evaluate e = (Evaluator.extended hs).dispatch F.evaluate e) →
      Evaluator.Conservative .standard F := by
  constructor
  · apply Evaluator.conservative_of_keeps
    intro e
    exact Evaluator.run_keeps hfree e.depth e
  · intro F hF
    apply Evaluator.conservative_of_keeps
    intro e
    exact Evaluator.run_keeps_fixpoint hfree hF e.depth e

/-- Names stand for their spelling. -/
def spelled : Handler
  | _, .name _ n => .ok (some (.text n))
  | _, _ => .ok none

theorem respects_spelled : spelled.Respects Eq := by
  intro eval eval' e _
  cases e with
  | _ => rfl

/-- What is found in `sampleUnit` if names are texts. -/
def spelledStore : Store :=
  .ofRecords [(⟨"title", none⟩, ⟨"A.java", 1⟩), (⟨"other", none⟩, ⟨"A.java", 1⟩),
    (⟨"ab", some "abs"⟩, ⟨"A.java", 5⟩)]

theorem extended_conservative_spelled :
    sampleUnit.scan sampleRegistry (.extended [(.name, spelled)]) = .ok spelledStore ∧
    (∃ s, sampleUnit.scan sampleRegistry .standard = .ok s ∧ s.Within spelledStore) ∧
    (∀ e, (Evaluator.extended [(.name, spelled)]).evaluate e =
      (Evaluator.extended [(.name, spelled)]).dispatch
        (Evaluator.extended [(.name, spelled)]).evaluate e) ∧
    Evaluator.Conservative .standard (.extended [(.name, spelled)]) := by
  have hfree : ∀ p ∈ [(Expr.Kind.name, spelled)], Evaluator.standard.handler p.1 = none := by
    intro p hp
    rw [List.mem_singleton.1 hp]
    rfl
  have hscan : sampleUnit.scan sampleRegistry (.extended [(.name, spelled)]) =
      .ok spelledStore := by
    rfl
  have hlocal : (Evaluator.extended [(.name, spelled)]).Local :=
    Evaluator.local_standard.register .name respects_spelled
  obtain ⟨hlimited, hunlimited⟩ := extended_conservative hfree
  exact ⟨hscan, hlimited.scan _ _ _ hscan, hlocal.evaluate_eq, hunlimited _ hlocal.evaluate_eq⟩

end MessageHarvest
