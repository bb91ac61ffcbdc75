import MessageHarvest.Command.Arguments
import MessageHarvest.Proofs.Extraction.Opening
import MessageHarvest.Proofs.Rule.Specification

/-! # Rules from the command line

    The rules of the command line are added to those of the configuration one
    by one, and each takes the place of one of its name. What carries over from
    rule to rule is that all names are distinct, so a registry can always be
    built from the result.

    * `build_eq_ok_iff`: a registry is built from valid rules with distinct
      names, and from no others.
    * `find?_overrideRules`: of several rules with a name the last one counts,
      and one of the configuration only if there is none.
    * `registry_override`: both together, for whole configurations.
    * `Project.ne_rules_of_parse`: no command line and no configuration file
      makes a project fail to open because of its rules. -/

namespace MessageHarvest

/-! ## Lists of rules that pass their checks -/

section Checks

variable {α : Type} {name : α → String} {validate : α → Except RuleError Unit}
  {duplicate : String → RuleError} {check : List String → List α → Except RuleError Unit}

/-- Rules are accepted if each is valid and has a name that no rule before it
    has. This holds of every check that goes through the rules in this way. -/
theorem check_eq_ok_iff (hnil : ∀ seen, check seen [] = .ok ())
    (hcons : ∀ seen r rs, check seen (r :: rs) = do
      validate r
      if seen.contains (name r) then .error (duplicate (name r))
      else check (name r :: seen) rs)
    {seen : List String} {rules : List α} :
    check seen rules = .ok () ↔
      (∀ r ∈ rules, validate r = .ok ()) ∧ (rules.map name).Nodup ∧
        ∀ r ∈ rules, name r ∉ seen := by
  induction rules generalizing seen with
  | nil => simp [hnil]
  | cons r rs ih =>
    have hstep : check seen (r :: rs) = .ok () ↔
        validate r = .ok () ∧ name r ∉ seen ∧ check (name r :: seen) rs = .ok () := by
      rw [hcons, check_bind_eq_ok_iff]
      by_cases hseen : name r ∈ seen <;> simp [hseen]
    -- a name is new to the rules behind it exactly if theirs are new to it
    have hnew : (∀ r' ∈ rs, name r' ∉ name r :: seen) ↔
        name r ∉ rs.map name ∧ ∀ r' ∈ rs, name r' ∉ seen := by
      simp only [List.mem_cons, not_or, List.mem_map, not_exists, not_and, ← forall_and]
    rw [hstep, ih, hnew, List.map_cons, List.nodup_cons, List.forall_mem_cons,
      List.forall_mem_cons]
    constructor
    · rintro ⟨hr, hseen, hrs, hnodup, hown, hothers⟩
      exact ⟨⟨hr, hrs⟩, ⟨hown, hnodup⟩, hseen, hothers⟩
    · rintro ⟨⟨hr, hrs⟩, ⟨hown, hnodup⟩, hseen, hothers⟩
      exact ⟨hr, hseen, hrs, hnodup, hown, hothers⟩

end Checks

namespace Registry

variable {methods : List MethodRule} {annotations : List AnnotationRule}

theorem checkMethods_eq_ok_iff {seen : List String} : checkMethods seen methods = .ok () ↔
    (∀ r ∈ methods, r.validate = .ok ()) ∧ (methods.map MethodRule.name).Nodup ∧
      ∀ r ∈ methods, r.name ∉ seen :=
  check_eq_ok_iff (fun _ => rfl) fun _ _ _ => rfl

theorem checkAnnotations_eq_ok_iff {seen : List String} :
    checkAnnotations seen annotations = .ok () ↔
      (∀ r ∈ annotations, r.validate = .ok ()) ∧ (annotations.map AnnotationRule.name).Nodup ∧
        ∀ r ∈ annotations, r.name ∉ seen :=
  check_eq_ok_iff (fun _ => rfl) fun _ _ _ => rfl

/-- Rules that make up a registry: all valid, all with names of their own. -/
structure Consistent (methods : List MethodRule) (annotations : List AnnotationRule) : Prop where
  methods_valid : ∀ r ∈ methods, r.validate = .ok ()
  methods_nodup : (methods.map MethodRule.name).Nodup
  annotations_valid : ∀ r ∈ annotations, r.validate = .ok ()
  annotations_nodup : (annotations.map AnnotationRule.name).Nodup

theorem build_eq_ok_iff {g : Registry} : build methods annotations = .ok g ↔
    Consistent methods annotations ∧ g = ⟨methods, annotations⟩ := by
  have hparts : build methods annotations = .ok g ↔ checkMethods [] methods = .ok () ∧
      checkAnnotations [] annotations = .ok () ∧ g = ⟨methods, annotations⟩ := by
    unfold build
    rw [check_bind_eq_ok_iff, check_bind_eq_ok_iff]
    refine and_congr_right fun _ => and_congr_right fun _ => ?_
    exact ⟨fun h => (Except.ok.inj h).symm, fun h => congrArg Except.ok h.symm⟩
  rw [hparts, checkMethods_eq_ok_iff, checkAnnotations_eq_ok_iff]
  constructor
  · rintro ⟨⟨hm, hmn, -⟩, ⟨ha, han, -⟩, rfl⟩
    exact ⟨⟨hm, hmn, ha, han⟩, rfl⟩
  · rintro ⟨h, rfl⟩
    exact ⟨⟨h.methods_valid, h.methods_nodup, by simp⟩,
      ⟨h.annotations_valid, h.annotations_nodup, by simp⟩, rfl⟩

end Registry

/-! ## Overriding -/

section Overriding

variable {α : Type} {name : α → String} {rules extra : List α} {r : α} {n : String}

/-- A rule behind the rules that it does not take the place of. -/
def replaceRule (name : α → String) (rules : List α) (r : α) : List α :=
  rules.filter (fun s => name s != name r) ++ [r]

theorem overrideRules_cons : overrideRules name rules (r :: extra) =
    overrideRules name (replaceRule name rules r) extra := rfl

theorem mem_replaceRule {s : α} (h : s ∈ replaceRule name rules r) : s ∈ rules ∨ s = r := by
  rcases List.mem_append.1 h with h | h
  · exact .inl (List.mem_filter.1 h).1
  · exact .inr (List.mem_singleton.1 h)

/-- The new rule has its name for itself. -/
theorem nodup_replaceRule (h : (rules.map name).Nodup) :
    ((replaceRule name rules r).map name).Nodup := by
  rw [replaceRule, List.map_append, List.nodup_append]
  refine ⟨h.sublist (List.filter_sublist.map name), List.pairwise_singleton _ _, ?_⟩
  intro a ha b hb
  obtain ⟨s, hs, rfl⟩ := List.mem_map.1 ha
  have hne := (List.mem_filter.1 hs).2
  rw [List.map_singleton, List.mem_singleton] at hb
  rw [hb]
  simpa using hne

theorem find?_replaceRule : (replaceRule name rules r).find? (fun s => name s == n) =
    if name r = n then some r else rules.find? fun s => name s == n := by
  rw [replaceRule, List.find?_append, List.find?_singleton]
  by_cases hn : name r = n
  · have hnone : (rules.filter fun s => name s != name r).find? (fun s => name s == n) = none := by
      rw [List.find?_eq_none]
      intro s hs
      simpa [hn] using (List.mem_filter.1 hs).2
    rw [hnone, if_pos (beq_iff_eq.2 hn), if_pos hn]
    rfl
  · -- no rule of another name is taken away
    have hsame : (rules.filter fun s => name s != name r).find? (fun s => name s == n) =
        rules.find? fun s => name s == n := by
      rw [List.find?_filter]
      congr 1
      funext s
      by_cases hs : name s = n <;> simp [hs, Ne.symm hn]
    rw [hsame, if_neg fun h => hn (beq_iff_eq.1 h), if_neg hn, Option.or_none]

theorem mem_overrideRules {s : α} (h : s ∈ overrideRules name rules extra) :
    s ∈ rules ∨ s ∈ extra := by
  induction extra generalizing rules with
  | nil => exact .inl h
  | cons r extra ih =>
    rcases ih h with h | h
    · rcases mem_replaceRule h with h | rfl
      · exact .inl h
      · exact .inr List.mem_cons_self
    · exact .inr (List.mem_cons_of_mem r h)

theorem nodup_overrideRules (h : (rules.map name).Nodup) :
    ((overrideRules name rules extra).map name).Nodup := by
  induction extra generalizing rules with
  | nil => exact h
  | cons r extra ih => exact ih (nodup_replaceRule h)

/-- The last of the new rules with a name counts, and an old one only without it. -/
theorem find?_overrideRules : (overrideRules name rules extra).find? (fun s => name s == n) =
    (extra.filter fun s => name s == n).getLast?.or (rules.find? fun s => name s == n) := by
  induction extra generalizing rules with
  | nil => rfl
  | cons r extra ih =>
    rw [overrideRules_cons, ih, find?_replaceRule, List.filter_cons]
    by_cases hn : name r = n
    · cases hlast : (extra.filter fun s => name s == n).getLast? <;>
        simp [hn, List.getLast?_cons, hlast]
    · simp [hn]

end Overriding

/-! ## Rules that were read -/

theorem AnnotationRule.valid_of_parse {spec : String} {r : AnnotationRule}
    (h : parse spec = .ok r) : r.validate = .ok () := by
  unfold parse at h
  obtain ⟨hvalid, h⟩ := check_bind_eq_ok_iff.1 h
  cases h
  exact hvalid

/-- The rules of the options were read from specifications. -/
structure ExtractOptions.Read (o : ExtractOptions) : Prop where
  keywords : ∀ r ∈ o.keywords, ∃ spec, MethodRule.parse spec = .ok r
  annotations : ∀ r ∈ o.annotations, ∃ spec, AnnotationRule.parse spec = .ok r

namespace Config

variable {c : Config} {o : ExtractOptions}

/-- The rules of a configuration that passes its check make up a registry. -/
theorem consistent_of_check (h : c.check = .ok ()) :
    Registry.Consistent c.keywords c.annotations := by
  unfold check at h
  obtain ⟨-, h⟩ := check_bind_eq_ok_iff.1 h
  obtain ⟨-, h⟩ := check_bind_eq_ok_iff.1 h
  dsimp only at h
  split at h
  · cases h
  · obtain ⟨-, -, h⟩ := bind_eq_ok_iff.1 h
    split at h
    · cases h
    · obtain ⟨g, hg, -⟩ := bind_eq_ok_iff.1 h
      exact (Registry.build_eq_ok_iff.1 (ok_of_mapError hg)).1

/-- What a text describes is returned only if it passes its check. -/
theorem check_of_ofText {path : Path} {text : String} (h : ofText path text = .ok c) :
    c.check = .ok () := by
  unfold ofText at h
  split at h
  · cases h
  · obtain ⟨hcheck, h⟩ := check_bind_eq_ok_iff.1 h
    cases h
    exact ok_of_mapError hcheck

/-- So does the configuration in which every entry has its default. -/
theorem check_standard : check {} = .ok () := ok_of_toOption (by decide +kernel)

/-- Rules that were read are valid, and overriding keeps names distinct. -/
theorem consistent_override (hc : Registry.Consistent c.keywords c.annotations) (ho : o.Read) :
    Registry.Consistent (c.override o).keywords (c.override o).annotations where
  methods_valid r hr := by
    rcases mem_overrideRules hr with hr | hr
    · exact hc.methods_valid r hr
    · obtain ⟨spec, hspec⟩ := ho.keywords r hr
      exact MethodRule.valid_of_parse hspec
  methods_nodup := nodup_overrideRules hc.methods_nodup
  annotations_valid r hr := by
    rcases mem_overrideRules hr with hr | hr
    · exact hc.annotations_valid r hr
    · obtain ⟨spec, hspec⟩ := ho.annotations r hr
      exact AnnotationRule.valid_of_parse hspec
  annotations_nodup := nodup_overrideRules hc.annotations_nodup

theorem registry_of_check (hc : c.check = .ok ()) (ho : o.Read) :
    (c.override o).registry = .ok ⟨(c.override o).keywords, (c.override o).annotations⟩ :=
  Registry.build_eq_ok_iff.2 ⟨consistent_override (consistent_of_check hc) ho, rfl⟩

/-- A configuration that is loaded passes its check, and so does the one that
    stands for a missing file. -/
theorem check_of_load {dir : Path} {d d' : Disk} {loaded : Loaded}
    (h : Disk.run (load dir) d = (.ok loaded, d')) : loaded.config.check = .ok () := by
  unfold load at h
  rcases Disk.run_bind_cases h with ⟨e, he, hr⟩ | ⟨found, d₁, -, hrest⟩
  · cases hr
  · cases found with
    | none =>
      cases hrest
      exact check_standard
    | some path =>
      rcases Disk.run_bind_cases hrest with ⟨e, -, hr⟩ | ⟨text, d₂, -, hrest⟩
      · cases hr
      · rcases Disk.run_except_cases hrest with ⟨e, -, hr, -⟩ | ⟨config, hconfig, hrest⟩
        · cases hr
        · cases hrest
          exact check_of_ofText hconfig

end Config

/-! ## Command lines -/

namespace Command.Reading

variable {r r' : Reading}

theorem options_once {c : Choice} (h : r.once c = .ok r') : r'.options = r.options := by
  unfold once at h
  split at h
  · cases h
  · cases h
    rfl

/-- An option that is settled adds at most a rule that was read. -/
theorem read_set {s : Setting} {value : String} (hr : r.options.Read)
    (h : r.set s value = .ok r') : r'.options.Read := by
  cases s with
  | root | output =>
    obtain ⟨r₁, -, h⟩ := bind_eq_ok_iff.1 h
    obtain ⟨p, -, h⟩ := bind_eq_ok_iff.1 h
    cases h
    exact ⟨hr.keywords, hr.annotations⟩
  | encoding =>
    obtain ⟨r₁, -, h⟩ := bind_eq_ok_iff.1 h
    cases h
    exact ⟨hr.keywords, hr.annotations⟩
  | keywordRule =>
    obtain ⟨k, hk, h⟩ := bind_eq_ok_iff.1 h
    cases h
    refine ⟨fun k' hk' => ?_, hr.annotations⟩
    rcases List.mem_append.1 hk' with hk' | hk'
    · exact hr.keywords k' hk'
    · rw [List.mem_singleton.1 hk']
      exact ⟨value, ok_of_mapError hk⟩
  | annotationRule =>
    obtain ⟨a, ha, h⟩ := bind_eq_ok_iff.1 h
    cases h
    refine ⟨hr.keywords, fun a' ha' => ?_⟩
    rcases List.mem_append.1 ha' with ha' | ha'
    · exact hr.annotations a' ha'
    · rw [List.mem_singleton.1 ha']
      exact ⟨value, ok_of_mapError ha⟩

theorem read_resolve (hr : r.options.Read) (h : r.resolve = .ok r') : r'.options.Read := by
  unfold resolve at h
  split at h
  · cases h
    exact hr
  · cases h
  · exact read_set (r := { r with pending := none }) hr h

theorem read_turnOn {s : Switch} (hr : r.options.Read) (h : r.turnOn s = .ok r') :
    r'.options.Read := by
  obtain ⟨r₁, hr₁, h⟩ := bind_eq_ok_iff.1 h
  obtain ⟨r₂, hr₂, h⟩ := bind_eq_ok_iff.1 h
  have hread : r₂.options.Read := by
    rw [options_once hr₂]
    exact read_resolve hr hr₁
  cases h
  cases s <;> exact ⟨hread.keywords, hread.annotations⟩

theorem read_start {s : Setting} {value? : Option String} (hr : r.options.Read)
    (h : r.start s value? = .ok r') : r'.options.Read := by
  obtain ⟨r₁, hr₁, h⟩ := bind_eq_ok_iff.1 h
  have hread := read_resolve hr hr₁
  cases value? with
  | some value => exact read_set hread h
  | none =>
    cases h
    exact hread

theorem stop_ne_ok {help : Help} : r.stop help ≠ .ok r' := by
  intro h
  obtain ⟨r₁, -, h⟩ := bind_eq_ok_iff.1 h
  cases h

theorem read_long {help : Help} {i : OptionInfo} {value? : Option String} (hr : r.options.Read)
    (h : long help r i value? = .ok r') : r'.options.Read := by
  unfold long at h
  split at h
  · exact read_start hr h
  · split at h
    · cases h
    · exact read_turnOn hr h
  · split at h
    · cases h
    · exact absurd h stop_ne_ok

theorem read_shorts {help : Help} {known : List OptionInfo} {letters : List Char}
    (hr : r.options.Read) (h : shorts help known r letters = .ok r') : r'.options.Read := by
  induction letters generalizing r with
  | nil =>
    cases h
    exact hr
  | cons c t ih =>
    unfold shorts at h
    split at h
    · cases h
    · exact read_start hr h
    · obtain ⟨r₁, hr₁, h⟩ := bind_eq_ok_iff.1 h
      exact ih (read_turnOn hr hr₁) h
    · exact absurd h stop_ne_ok

/-- However words are read, all rules among the options were read. -/
theorem read_words {help : Help} {known : List OptionInfo} {ws : List String}
    (hr : r.options.Read) (h : words help known r ws = .ok r') : r'.options.Read := by
  induction ws generalizing r with
  | nil => exact read_resolve hr h
  | cons w ws ih =>
    unfold words at h
    split at h
    · split at h
      · exact read_resolve hr h
      · cases h
    · split at h
      · cases h
      · obtain ⟨r₁, hr₁, h⟩ := bind_eq_ok_iff.1 h
        exact ih (read_long hr hr₁) h
    · obtain ⟨r₁, hr₁, h⟩ := bind_eq_ok_iff.1 h
      exact ih (read_shorts hr hr₁) h
    · split at h
      · refine ih ?_ h
        exact hr
      · cases h

end Command.Reading

theorem Command.parseInit_ne_extract {ws : List String} {o : ExtractOptions} :
    parseInit ws ≠ .ok (.extract o) := by
  intro h
  unfold parseInit at h
  repeat' split at h
  all_goals cases h

/-- The rules of every command line were read from specifications. -/
theorem Command.read_of_parse {environment : Option String} {ws : List String}
    {o : ExtractOptions} (h : parse environment ws = .ok (.extract o)) : o.Read := by
  have hextract : ∀ {ws}, (parseExtract environment ws).map Command.extract = .ok (.extract o) →
      o.Read := by
    intro ws h
    obtain ⟨o', ho', heq⟩ := map_eq_ok_iff.1 h
    cases heq
    obtain ⟨r, hr, ho'⟩ := bind_eq_ok_iff.1 ho'
    have hread := Reading.read_words ⟨by simp, by simp⟩ hr
    split at ho'
    · obtain ⟨p, -, ho'⟩ := bind_eq_ok_iff.1 ho'
      cases ho'
      exact ⟨hread.keywords, hread.annotations⟩
    · cases ho'
      exact hread
  unfold parse at h
  split at h
  · cases h
  · split at h
    case h_1 => exact hextract h
    case h_2 => exact absurd h parseInit_ne_extract
    case h_13 =>
      repeat' split at h
      all_goals cases h
    all_goals cases h

/-! ## Registries of projects -/

/-- The rule of a name if some rules override others: the last of the former,
    else the first of the latter. -/
def overriding? {α : Type} (name : α → String) (rules extra : List α) (n : String) : Option α :=
  (extra.filter fun r => name r == n).getLast?.or (rules.find? fun r => name r == n)

/-- Rules of the command line override those of a configuration and never
    clash with them or with each other. What makes up a registry at all are
    valid rules without a name twice. -/
theorem registry_override {c : Config} {o : ExtractOptions} (hc : c.check = .ok ())
    (ho : o.Read) :
    (∃ g, (c.override o).registry = .ok g ∧
      (∀ n, g.methodRule? n = overriding? MethodRule.name c.keywords o.keywords n) ∧
      ∀ n, g.annotationRule? n =
        overriding? AnnotationRule.name c.annotations o.annotations n) ∧
    ∀ methods annotations, (∃ g, Registry.build methods annotations = .ok g) ↔
      Registry.Consistent methods annotations := by
  constructor
  · refine ⟨_, Config.registry_of_check hc ho, fun n => ?_, fun n => ?_⟩
    · exact find?_overrideRules
    · exact find?_overrideRules
  · intro methods annotations
    constructor
    · rintro ⟨g, hg⟩
      exact (Registry.build_eq_ok_iff.1 hg).1
    · intro h
      exact ⟨_, Registry.build_eq_ok_iff.2 ⟨h, rfl⟩⟩

-- a name that comes twice on the command line and once in the configuration
theorem registry_override_sample :
    let o : ExtractOptions :=
      { keywords := [⟨"tr", 1, none⟩, ⟨"gettext", 0, none⟩, ⟨"tr", 2, some 3⟩]
        annotations := [⟨"p.Tr", ["value"]⟩, ⟨"p.Tr", ["label", "text"]⟩] }
    ∃ g, (Config.override {} o).registry = .ok g ∧
      g.methodRule? "tr" = some ⟨"tr", 2, some 3⟩ ∧ g.methodRule? "trc" = some ⟨"trc", 1, none⟩ ∧
      g.methodRule? "ngettext" = none ∧
      g.annotationRule? "p.Tr" = some ⟨"p.Tr", ["label", "text"]⟩ := by
  intro o
  have hread : o.Read := by
    constructor
    · simp only [o, List.forall_mem_cons]
      exact ⟨⟨"tr:2", rfl⟩, ⟨" gettext", rfl⟩, ⟨"tr: 3,+4", rfl⟩, by simp⟩
    · simp only [o, List.forall_mem_cons]
      exact ⟨⟨"p.Tr", rfl⟩, ⟨"p.Tr:label,,text", rfl⟩, by simp⟩
  obtain ⟨g, hg, hmethod, hnamed⟩ := (registry_override Config.check_standard hread).1
  refine ⟨g, hg, ?_, ?_, ?_, ?_⟩
  · rw [hmethod]; decide
  · rw [hmethod]; decide
  · rw [hmethod]; decide
  · rw [hnamed]; decide

/-- No project fails to open because of its rules, whatever the command line
    and the configuration file say. -/
theorem Project.ne_rules_of_parse {environment : Option String} {ws : List String}
    {o : ExtractOptions} (ho : Command.parse environment ws = .ok (.extract o)) {d d' : Disk}
    {e : CommandError} (h : Disk.run (Project.load o) d = (.error e, d')) (cause : RuleError) :
    e ≠ .source (.rules cause) := by
  cases (Project.opens_of_load h).2 with
  | unruly hconfigured hregistry =>
    -- the only step that looks at the rules
    rw [Config.registry_of_check (Config.check_of_load hconfigured.load)
      (Command.read_of_parse ho)] at hregistry
    cases hregistry
  | _ => simp

end MessageHarvest
