import MessageHarvest.Proofs.Outcome
import MessageHarvest.Proofs.Text.Number
import MessageHarvest.Proofs.Text.Trimming
import MessageHarvest.Rule.Spec

/-! # Which texts specify rules

    A specification is cut at its first colon, and what follows at commas. The
    relations `MethodRule.Specifies` and `AnnotationRule.Specifies` say which
    texts are specifications and of which rule, without saying how to read them.

    * `MethodRule.parse_eq_ok_iff`, `AnnotationRule.parse_eq_ok_iff`: exactly
      these texts are read, and as these rules.
    * `MethodRule.parse_keyword`: a rule is read back from its own keyword, so
      counting from one on paper and from zero in rules agree. -/

namespace MessageHarvest

/-! ## Names -/

theorem blank_stripped (t : List Char) : blank (stripped t) = false ↔ ¬ Text.Blank t := by
  rw [← Text.blank_trim_iff, ← Bool.not_eq_true, blank, stripped, String.toList_ofList,
    List.all_eq_true]
  rfl

theorem stripped_eq_empty_iff (t : List Char) : stripped t = "" ↔ Text.Blank t := by
  rw [← Text.trim_eq_nil_iff, stripped]
  constructor
  · intro h
    simpa using congrArg String.toList h
  · intro h
    rw [h]

namespace MethodRule

/-! ## Keywords -/

/-- A text that gives an argument of a method, counted from one: a decimal
    number that fits in 64 bits, with blanks around it. -/
def Argument (t : List Char) (n : Nat) : Prop :=
  Text.Decimal (Text.trim t) n ∧ 1 ≤ n ∧ n < Text.countLimit

/-- The arguments for singular and plural that the text behind a colon gives. -/
inductive Selects : List Char → Nat → Option Nat → Prop
  | singular {t : List Char} {s : Nat} : ',' ∉ t → Argument t s → Selects t s none
  | plural {a b : List Char} {s p : Nat} : ',' ∉ a → Argument a s → Argument b p → s ≠ p →
    Selects (a ++ ',' :: b) s (some p)

/-- A keyword and the rule that it specifies. -/
inductive Specifies : List Char → MethodRule → Prop
  | bare {name : List Char} : ':' ∉ name → ¬ Text.Blank name →
    Specifies name ⟨stripped name, 0, none⟩
  | indexed {name t : List Char} {s : Nat} {p : Option Nat} : ':' ∉ name → ¬ Text.Blank name →
    Selects t s p → Specifies (name ++ ':' :: t) ⟨stripped name, s - 1, p.map (· - 1)⟩

section Reading

variable {t name : List Char} {n s : Nat} {p : Option Nat} {spec : String} {r : MethodRule}

theorem index?_eq_some_iff : index? t = some n ↔ Argument t (n + 1) := by
  have hcount : index? t = some n ↔ Text.count? (Text.trim t) = some (n + 1) := by
    unfold index?
    split
    · next m hm => simp [hm]
    · next hnone => simpa using hnone n
  rw [hcount, Text.count?_eq_some_iff, Argument]
  constructor
  · rintro ⟨hdecimal, hlt⟩
    exact ⟨hdecimal, Nat.succ_pos n, hlt⟩
  · rintro ⟨hdecimal, -, hlt⟩
    exact ⟨hdecimal, hlt⟩

theorem Argument.index? (h : Argument t n) : index? t = some (n - 1) := by
  have hn : n - 1 + 1 = n := Nat.sub_add_cancel h.2.1
  exact index?_eq_some_iff.2 (hn.symm ▸ h)

/-- What is read as different indexes selects different arguments. -/
theorem selects_of_indexes? (h : indexes? t = some (s, p)) (hne : p ≠ some s) :
    Selects t (s + 1) (p.map (· + 1)) := by
  unfold indexes? at h
  split at h
  · next hcut =>
    obtain ⟨s', hs, h⟩ := Option.map_eq_some_iff.1 h
    cases h
    exact .singular (Text.splitFirst_char_eq_none_iff.1 hcut) (index?_eq_some_iff.1 hs)
  · next a b hcut =>
    obtain ⟨rfl, hcomma⟩ := Text.splitFirst_char_eq_some_iff.1 hcut
    obtain ⟨s', hs, h⟩ := Option.bind_eq_some_iff.1 h
    obtain ⟨p', hp, h⟩ := Option.bind_eq_some_iff.1 h
    cases h
    refine .plural hcomma (index?_eq_some_iff.1 hs) (index?_eq_some_iff.1 hp) fun e => hne ?_
    rw [Nat.add_right_cancel e]

theorem Selects.indexes? (h : Selects t s p) :
    indexes? t = some (s - 1, p.map (· - 1)) ∧ p.map (· - 1) ≠ some (s - 1) := by
  unfold MethodRule.indexes?
  cases h with
  | singular hcomma hs =>
    rw [Text.splitFirst_char_eq_none_iff.2 hcomma, hs.index?]
    simp
  | plural hcomma hs hp hne =>
    rw [Text.splitFirst_char_eq_some_iff.2 ⟨rfl, hcomma⟩]
    dsimp only
    rw [hs.index?, hp.index?]
    refine ⟨rfl, fun e => hne ?_⟩
    have hs' := hs.2.1
    have hp' := hp.2.1
    have heq : _ - 1 = s - 1 := Option.some.inj e
    omega

theorem map_pred_map_succ (p : Option Nat) : (p.map (· + 1)).map (· - 1) = p := by
  cases p <;> rfl

/-- A rule is read in two steps: a draft, and its check. -/
theorem draft_eq_ok_iff {draft : Except RuleError MethodRule} :
    (do let rule ← draft; rule.validate; return rule) = .ok r ↔
      draft = .ok r ∧ r.validate = .ok () := by
  rw [bind_eq_ok_iff]
  constructor
  · rintro ⟨rule, hrule, h⟩
    obtain ⟨hvalid, h⟩ := check_bind_eq_ok_iff.1 h
    cases h
    exact ⟨hrule, hvalid⟩
  · rintro ⟨hdraft, hvalid⟩
    exact ⟨r, hdraft, check_bind_eq_ok_iff.2 ⟨hvalid, rfl⟩⟩

theorem validate_stripped : validate ⟨stripped name, s, p⟩ = .ok () ↔
    ¬ Text.Blank name ∧ p ≠ some s := by
  rw [validate_eq_ok_iff, blank_stripped]

/-- A rule that is specified is valid. -/
theorem Specifies.valid (h : Specifies t r) : r.validate = .ok () := by
  cases h with
  | bare _ hname => exact validate_stripped.2 ⟨hname, by simp⟩
  | indexed _ hname hselects => exact validate_stripped.2 ⟨hname, hselects.indexes?.2⟩

/-- Exactly the keywords are read, as the rules that they specify. -/
theorem parse_eq_ok_iff : parse spec = .ok r ↔ Specifies spec.toList r := by
  unfold parse
  dsimp only
  constructor
  · intro h
    split at h
    · next hcut =>
      obtain ⟨hdraft, hvalid⟩ := draft_eq_ok_iff.1 h
      cases hdraft
      exact .bare (Text.splitFirst_char_eq_none_iff.1 hcut) (validate_stripped.1 hvalid).1
    · next name t hcut =>
      obtain ⟨hspec, hcolon⟩ := Text.splitFirst_char_eq_some_iff.1 hcut
      split at h
      · next s p hindexes =>
        obtain ⟨hdraft, hvalid⟩ := draft_eq_ok_iff.1 h
        cases hdraft
        obtain ⟨hname, hne⟩ := validate_stripped.1 hvalid
        have hrule := Specifies.indexed hcolon hname (selects_of_indexes? hindexes hne)
        rw [map_pred_map_succ] at hrule
        rw [hspec]
        exact hrule
      · cases h
  -- the text is an index of the relation, so `cases` needs it as a variable
  · generalize spec.toList = t
    intro h
    have hvalid := h.valid
    cases h with
    | bare hcolon _ =>
      rw [Text.splitFirst_char_eq_none_iff.2 hcolon]
      exact draft_eq_ok_iff.2 ⟨rfl, hvalid⟩
    | indexed hcolon _ hselects =>
      rw [Text.splitFirst_char_eq_some_iff.2 ⟨rfl, hcolon⟩]
      dsimp only
      rw [hselects.indexes?.1]
      exact draft_eq_ok_iff.2 ⟨rfl, hvalid⟩

theorem valid_of_parse (h : parse spec = .ok r) : r.validate = .ok () := (parse_eq_ok_iff.1 h).valid

end Reading

/-! ## Rules as keywords -/

/-- The keyword of a rule, with its arguments counted from one. -/
def keyword (r : MethodRule) : String :=
  r.name ++ ":" ++ toString (r.singularIndex + 1) ++
    match r.pluralIndex with
    | none => ""
    | some p => "," ++ toString (p + 1)

theorem argument_toDigits {n : Nat} (h : n + 1 < Text.countLimit) :
    Argument (Nat.toDigits 10 (n + 1)) (n + 1) := by
  have hsolid : ∀ c ∈ Nat.toDigits 10 (n + 1), Text.isBlank c = false := fun c hc =>
    Text.not_isBlank_of_isDigit ((Text.isDigits_iff.1 (Text.isDigits_toDigits _)).2 c hc)
  refine ⟨?_, Nat.succ_pos n, h⟩
  rw [Text.trim_of_solid hsolid]
  exact Text.decimal_toDigits (n + 1)

/-- A rule is read back from its keyword. -/
theorem parse_keyword {r : MethodRule} (hvalid : r.validate = .ok ())
    (htrimmed : Text.trim r.name.toList = r.name.toList) (hcolon : ':' ∉ r.name.toList)
    (hs : r.singularIndex + 1 < Text.countLimit)
    (hp : ∀ p ∈ r.pluralIndex, p + 1 < Text.countLimit) : parse r.keyword = .ok r := by
  obtain ⟨name, s, p⟩ := r
  obtain ⟨hname, hne⟩ := (validate_eq_ok_iff _).1 hvalid
  have hstripped : stripped name.toList = name := by
    rw [stripped, htrimmed, String.ofList_toList]
  rw [← hstripped, blank_stripped] at hname
  have hcomma : ',' ∉ Nat.toDigits 10 (s + 1) := fun hmem =>
    absurd ((Text.isDigits_iff.1 (Text.isDigits_toDigits _)).2 _ hmem) (by decide)
  -- behind the colon stands one number, or two with a comma between them
  have hselects : Selects
      (Nat.toDigits 10 (s + 1) ++ (p.map fun p => ',' :: Nat.toDigits 10 (p + 1)).getD [])
      (s + 1) (p.map (· + 1)) := by
    cases p with
    | none =>
      rw [Option.map_none, Option.getD_none, List.append_nil]
      exact .singular hcomma (argument_toDigits hs)
    | some p =>
      refine .plural hcomma (argument_toDigits hs) (argument_toDigits (hp p rfl)) fun e => hne ?_
      rw [Nat.add_right_cancel e]
  have hspec : (keyword ⟨name, s, p⟩).toList = name.toList ++ ':' ::
      (Nat.toDigits 10 (s + 1) ++ (p.map fun p => ',' :: Nat.toDigits 10 (p + 1)).getD []) := by
    cases p <;> simp [keyword]
  have hrule := Specifies.indexed hcolon hname hselects
  rw [map_pred_map_succ, hstripped] at hrule
  rw [parse_eq_ok_iff, hspec]
  exact hrule

end MethodRule

namespace AnnotationRule

/-! ## Annotations -/

/-- An annotation specification and the rule that it specifies. -/
inductive Specifies : List Char → AnnotationRule → Prop
  | bare {name : List Char} : ':' ∉ name → ¬ Text.Blank name →
    Specifies name ⟨stripped name, ["value"]⟩
  | listed {name : List Char} {pieces : List (List Char)} : ':' ∉ name → ¬ Text.Blank name →
    (∀ f ∈ pieces, ',' ∉ f) → (∃ f ∈ pieces, ¬ Text.Blank f) →
    Specifies (name ++ ':' :: Text.join [','] pieces)
      ⟨stripped name, (pieces.filter fun f => ¬ Text.Blank f).map stripped⟩

section Reading

variable {name : List Char} {pieces : List (List Char)} {spec : String} {r : AnnotationRule}

/-- The fields that are kept are those that are not blank. -/
theorem fields_eq (pieces : List (List Char)) : (pieces.map stripped).filter (fun f => f != "") =
    (pieces.filter fun f => ¬ Text.Blank f).map stripped := by
  rw [List.filter_map]
  congr 2
  funext f
  rw [Bool.eq_iff_iff]
  simp [stripped_eq_empty_iff]

theorem validate_stripped :
    validate ⟨stripped name, (pieces.filter fun f => ¬ Text.Blank f).map stripped⟩ = .ok () ↔
      ¬ Text.Blank name ∧ ∃ f ∈ pieces, ¬ Text.Blank f := by
  have hkept : ∀ f ∈ (pieces.filter fun f => ¬ Text.Blank f).map stripped, blank f = false := by
    intro f hf
    obtain ⟨piece, hpiece, rfl⟩ := List.mem_map.1 hf
    exact (blank_stripped piece).2 (of_decide_eq_true (List.mem_filter.1 hpiece).2)
  have hsome : (pieces.filter fun f => ¬ Text.Blank f).map stripped ≠ [] ↔
      ∃ f ∈ pieces, ¬ Text.Blank f := by
    rw [ne_eq, List.map_eq_nil_iff, List.filter_eq_nil_iff]
    simp
  rw [validate_eq_ok_iff, blank_stripped, hsome]
  exact ⟨fun h => ⟨h.1, h.2.1⟩, fun h => ⟨h.1, h.2, hkept⟩⟩

/-- Exactly the specifications are read, as the rules that they specify. -/
theorem parse_eq_ok_iff : parse spec = .ok r ↔ Specifies spec.toList r := by
  have hbare : ∀ name, validate ⟨stripped name, ["value"]⟩ = .ok () ↔ ¬ Text.Blank name := by
    intro name
    rw [validate_eq_ok_iff, blank_stripped]
    refine ⟨fun h => h.1, fun h => ⟨h, List.cons_ne_nil _ _, fun f hf => ?_⟩⟩
    rw [List.mem_singleton.1 hf]
    decide
  unfold parse
  rw [check_bind_eq_ok_iff]
  constructor
  · rintro ⟨hvalid, hrule⟩
    cases hrule
    cases hcut : Text.splitFirst (· == ':') spec.toList with
    | none =>
      rw [hcut] at hvalid
      exact .bare (Text.splitFirst_char_eq_none_iff.1 hcut) ((hbare _).1 hvalid)
    | some cut =>
      obtain ⟨name, t⟩ := cut
      obtain ⟨hspec, hcolon⟩ := Text.splitFirst_char_eq_some_iff.1 hcut
      rw [hcut] at hvalid
      dsimp only at hvalid ⊢
      rw [fields_eq] at hvalid ⊢
      obtain ⟨hname, hsome⟩ := validate_stripped.1 hvalid
      have hrule := Specifies.listed hcolon hname
        (fun f hf => Text.not_mem_of_mem_fields hf) hsome
      rw [Text.join_fields] at hrule
      rw [hspec]
      exact hrule
  · generalize spec.toList = t
    intro h
    cases h with
    | bare hcolon hname =>
      rw [Text.splitFirst_char_eq_none_iff.2 hcolon]
      exact ⟨(hbare _).2 hname, rfl⟩
    | listed hcolon hname hcomma hsome =>
      obtain ⟨f, hf, hfilled⟩ := hsome
      rw [Text.splitFirst_char_eq_some_iff.2 ⟨rfl, hcolon⟩]
      dsimp only
      rw [Text.fields_join hcomma (List.ne_nil_of_mem hf), fields_eq]
      exact ⟨validate_stripped.2 ⟨hname, f, hf, hfilled⟩, rfl⟩

end Reading

end AnnotationRule

/-! ## Specifications -/

/-- **Specifications are read exactly.** A keyword is read if and only if it has
    a name before its first colon, and behind it one argument or two different
    ones; the rule has the trimmed name and the indexes below these arguments,
    and is valid. A valid rule is read back from the keyword that is written
    for it. An annotation specification is read if and only if it has a name,
    and behind a colon at least one field that is not blank; the rule has these
    fields, trimmed and in order. -/
theorem specifications_exact :
    (∀ (spec : String) (r : MethodRule),
      MethodRule.parse spec = .ok r ↔ MethodRule.Specifies spec.toList r) ∧
    (∀ (spec : String) (r : MethodRule),
      MethodRule.parse spec = .ok r → r.validate = .ok ()) ∧
    (∀ r : MethodRule, r.validate = .ok () → Text.trim r.name.toList = r.name.toList →
      ':' ∉ r.name.toList → r.singularIndex + 1 < Text.countLimit →
      (∀ p ∈ r.pluralIndex, p + 1 < Text.countLimit) → MethodRule.parse r.keyword = .ok r) ∧
    ∀ (spec : String) (r : AnnotationRule),
      AnnotationRule.parse spec = .ok r ↔ AnnotationRule.Specifies spec.toList r := by
  refine ⟨fun spec r => MethodRule.parse_eq_ok_iff, fun spec r h => ?_,
    fun r hvalid htrimmed hcolon hs hp => ?_, fun spec r => AnnotationRule.parse_eq_ok_iff⟩
  · exact MethodRule.valid_of_parse h
  · exact MethodRule.parse_keyword hvalid htrimmed hcolon hs hp

/-- A keyword with a sign, a zero and blanks, the largest argument that there
    is, and an annotation with a blank field. -/
theorem specifications_exact_sample :
    MethodRule.Specifies " trn :+02 , 1 ".toList ⟨"trn", 1, some 0⟩ ∧
    MethodRule.validate ⟨"trn", 1, some 0⟩ = .ok () ∧
    MethodRule.validate ⟨"tr", 0, some (Text.countLimit - 2)⟩ = .ok () ∧
    MethodRule.parse (MethodRule.keyword ⟨"tr", 0, some (Text.countLimit - 2)⟩) =
      .ok ⟨"tr", 0, some (Text.countLimit - 2)⟩ ∧
    AnnotationRule.Specifies "org.Label:text, ,tooltip".toList
      ⟨"org.Label", ["text", "tooltip"]⟩ := by
  obtain ⟨hkeyword, hvalid, hback, hfields⟩ := specifications_exact
  have hread : MethodRule.parse " trn :+02 , 1 " = .ok ⟨"trn", 1, some 0⟩ := by decide +kernel
  have hlarge : MethodRule.validate ⟨"tr", 0, some (Text.countLimit - 2)⟩ = .ok () := by decide
  refine ⟨(hkeyword _ _).1 hread, hvalid _ _ hread, hlarge, ?_, (hfields _ _).1 ?_⟩
  · exact hback _ hlarge (by decide) (by decide) (by decide) (by decide)
  · decide +kernel

end MessageHarvest
