import MessageHarvest.Files.Disk
import MessageHarvest.Proofs.Text.Lines

/-! # Spelling paths and reading them

    A path that is joined from two is spelled with a slash between them, and
    comes apart at that slash again. So joining adds up, whatever view of a
    path one takes:

    * `names_join`: the names that lead to a place.
    * `components_join`, `components_descend`: the components, which tell paths
      apart and decide what is below what.
    * `relativeTo_eq`: below a root, the relative path is what was added to the
      root, so the spelling of the root does not matter (`eq_of_intercalate_eq`:
      and different places have different relative paths). -/

namespace MessageHarvest

/-! ## Parts -/

namespace Path

theorem parts_append_slash (s t : List Char) : parts (s ++ '/' :: t) = parts s ++ parts t := by
  unfold parts
  induction s with
  | nil => simp [Text.fields]
  | cons c s ih =>
    rw [List.cons_append, Text.fields, Text.fields]
    split
    · rw [ih, List.cons_append]
    · rw [ih]
      cases hs : Text.fields (· == '/') s with
      | nil => exact absurd hs (Text.fields_ne_nil _ s)
      | cons f fs => rfl

theorem parts_of_not_mem {t : List Char} (h : '/' ∉ t) : parts t = [t] := by
  unfold parts
  induction t with
  | nil => rfl
  | cons c t ih =>
    rw [List.mem_cons, not_or] at h
    have hc : ¬ (c == '/') = true := by simpa using Ne.symm h.1
    rw [Text.fields, if_neg hc, ih h.2]

theorem not_mem_of_mem_parts {t part : List Char} (h : part ∈ parts t) : '/' ∉ part := by
  intro hslash
  simpa using Text.forall_of_mem_fields h '/' hslash

theorem mem_of_mem_parts {t part : List Char} (h : part ∈ parts t) {c : Char} (hc : c ∈ part) :
    c ∈ t := by
  unfold parts at h
  induction t generalizing part with
  | nil =>
    rw [Text.fields, List.mem_singleton] at h
    simp [h] at hc
  | cons d t ih =>
    rw [Text.fields] at h
    split at h
    · rcases List.mem_cons.1 h with rfl | h
      · cases hc
      · exact List.mem_cons_of_mem d (ih h hc)
    · cases hf : Text.fields (· == '/') t with
      | nil => exact absurd hf (Text.fields_ne_nil _ t)
      | cons f fs =>
        rw [hf] at h ih
        rcases List.mem_cons.1 h with rfl | h
        · rcases List.mem_cons.1 hc with rfl | hc
          · exact List.mem_cons_self
          · exact List.mem_cons_of_mem d (ih List.mem_cons_self hc)
        · exact List.mem_cons_of_mem d (ih (List.mem_cons_of_mem f h) hc)

/-- The components that the parts of a text are behind the first one. -/
def solid (t : List Char) : List Component := (parts t).filterMap Component.ofPart?

theorem solid_append_slash (s t : List Char) : solid (s ++ '/' :: t) = solid s ++ solid t := by
  rw [solid, parts_append_slash, List.filterMap_append]
  rfl

theorem solid_nil : solid [] = [] := rfl

/-- The component that a path has because of its first part. -/
def lead (p : Path) : List Component :=
  if p.isAbsolute then [.root]
  else if (parts p.text.toList).head? = some ['.'] then [.current]
  else []

/-- Only the first part of a path is read in its own way. -/
theorem components_eq (p : Path) : p.components = p.lead ++ solid p.text.toList := by
  unfold components lead isAbsolute solid
  generalize p.text.toList = t
  cases t with
  | nil => rfl
  | cons c t =>
    by_cases hc : c = '/'
    · subst hc
      have hparts : parts ('/' :: t) = [] :: parts t := parts_append_slash [] t
      simp [hparts, Component.ofPart?]
    · have hrelative : ((c :: t).head? == some '/') = false := by simpa using hc
      rw [hrelative]
      cases hparts : parts (c :: t) with
      | nil => exact absurd hparts (Text.fields_ne_nil _ _)
      | cons first rest =>
        by_cases hdot : first = ['.']
        · simp [hc, hparts, hdot, Component.ofPart?]
        · cases hfirst : Component.ofPart? first <;> simp [hc, hparts, hdot, hfirst]

/-! ## Joining -/

/-- A relative path is put behind a slash, which is there already if the first
    path ends in one. -/
theorem text_join {p q : Path} (hq : q.isAbsolute = false) (hp : p.text ≠ "") :
    (∃ s, p.text.toList = s ++ ['/'] ∧
      (p.join q).text.toList = s ++ '/' :: q.text.toList) ∨
      (p.join q).text.toList = p.text.toList ++ '/' :: q.text.toList := by
  have hne : p.text.toList ≠ [] := fun e => hp (by simpa using congrArg String.ofList e)
  have hempty : p.text.toList.isEmpty = false := by simpa using hne
  unfold join
  rw [hq]
  cases hslash : p.text.toList.getLast? == some '/' with
  | true =>
    left
    obtain ⟨s, hs⟩ := List.getLast?_eq_some_iff.1 (beq_iff_eq.1 hslash)
    refine ⟨s, hs, ?_⟩
    simp [hs]
  | false =>
    right
    simp [hempty, hslash]

theorem text_join_empty {p q : Path} (hq : q.isAbsolute = false) (hp : p.text = "") :
    (p.join q).text = q.text := by
  unfold join
  simp [hq, hp]

theorem text_join_ne_empty {p q : Path} (hq : q.isAbsolute = false) (hp : p.text ≠ "") :
    (p.join q).text ≠ "" := by
  intro e
  rcases text_join hq hp with ⟨s, -, h⟩ | h <;> simp [e] at h

theorem head?_text_join {p q : Path} (hq : q.isAbsolute = false) (hp : p.text ≠ "") :
    (p.join q).text.toList.head? = p.text.toList.head? := by
  have hne : p.text.toList ≠ [] := fun e => hp (by simpa using congrArg String.ofList e)
  obtain ⟨c, t, hc⟩ := List.exists_cons_of_ne_nil hne
  rcases text_join hq hp with ⟨s, hs, h⟩ | h
  · rw [h, hs]
    cases s <;> rfl
  · rw [h, hc]
    rfl

theorem isAbsolute_join {p q : Path} (hq : q.isAbsolute = false) (hp : p.text ≠ "") :
    (p.join q).isAbsolute = p.isAbsolute := by
  unfold isAbsolute
  rw [head?_text_join hq hp]

/-- What reads a text part by part, and nothing between two slashes, adds up
    under joining. -/
theorem join_additive {β : Type} {f : List Char → List β}
    (hf : ∀ s t, f (s ++ '/' :: t) = f s ++ f t) (hnil : f [] = []) {p q : Path}
    (hq : q.isAbsolute = false) :
    f (p.join q).text.toList = f p.text.toList ++ f q.text.toList := by
  by_cases hp : p.text = ""
  · rw [text_join_empty hq hp, hp]
    simp [hnil]
  · rcases text_join hq hp with ⟨s, hs, h⟩ | h
    · rw [h, hs, hf, hf, hnil, List.append_nil]
    · rw [h, hf]

theorem head?_parts_join {p q : Path} (hq : q.isAbsolute = false) (hp : p.text ≠ "") :
    (parts (p.join q).text.toList).head? = (parts p.text.toList).head? := by
  have hhead : ∀ s t, (parts (s ++ '/' :: t)).head? = (parts s).head? := by
    intro s t
    rw [parts_append_slash]
    cases hs : parts s with
    | nil => exact absurd hs (Text.fields_ne_nil _ s)
    | cons f fs => rfl
  rcases text_join hq hp with ⟨s, hs, h⟩ | h
  · rw [h, hs, hhead, hhead]
  · rw [h, hhead]

/-- A path that is joined has the components of both. -/
theorem components_join {p q : Path} (hq : q.isAbsolute = false) (hp : p.text ≠ "") :
    (p.join q).components = p.components ++ solid q.text.toList := by
  have hlead : (p.join q).lead = p.lead := by
    unfold lead
    rw [isAbsolute_join hq hp, head?_parts_join hq hp]
  rw [components_eq, components_eq, hlead, join_additive solid_append_slash solid_nil hq,
    List.append_assoc]

end Path

/-- The names that lead to a place add up. -/
theorem Disk.names_append_slash (s t : List Char) :
    Disk.names (s ++ '/' :: t) = Disk.names s ++ Disk.names t := by
  rw [Disk.names, Path.parts_append_slash, List.filter_append]
  rfl

theorem Disk.names_join {p q : Path} (hq : q.isAbsolute = false) :
    Disk.names (p.join q).text.toList = Disk.names p.text.toList ++ Disk.names q.text.toList :=
  Path.join_additive Disk.names_append_slash rfl hq

namespace Path

/-! ## Names of files -/

section FileNames

variable {p : Path} {name : String}

/-- A name of a file or directory that is spelled in one part. -/
structure Plain (name : String) : Prop where
  ne_empty : name.toList ≠ []
  ne_current : name.toList ≠ ['.']
  ne_parent : name.toList ≠ ['.', '.']
  no_slash : '/' ∉ name.toList

instance (name : String) : Decidable (Plain name) :=
  decidable_of_iff (name.toList ≠ [] ∧ name.toList ≠ ['.'] ∧ name.toList ≠ ['.', '.'] ∧
      '/' ∉ name.toList)
    ⟨fun ⟨he, hc, hp, hs⟩ => ⟨he, hc, hp, hs⟩, fun h => ⟨h.1, h.2, h.3, h.4⟩⟩

theorem ofPart?_eq_some_normal {part : List Char} (h : part ≠ []) (h' : part ≠ ['.'])
    (h'' : part ≠ ['.', '.']) : Component.ofPart? part = some (.normal (String.ofList part)) := by
  simp [Component.ofPart?, h, h', h'']

theorem Plain.solid (h : Plain name) : solid name.toList = [.normal name] := by
  rw [Path.solid, parts_of_not_mem h.no_slash, List.filterMap_cons,
    ofPart?_eq_some_normal h.ne_empty h.ne_current h.ne_parent, String.ofList_toList]
  rfl

theorem isAbsolute_of_not_mem (h : '/' ∉ p.text.toList) : p.isAbsolute = false := by
  unfold isAbsolute
  rw [beq_eq_false_iff_ne]
  exact fun e => h (List.mem_of_mem_head? e)

theorem Plain.isAbsolute (h : Plain name) : (⟨name⟩ : Path).isAbsolute = false :=
  isAbsolute_of_not_mem h.no_slash

theorem Plain.names (h : Plain name) : Disk.names name.toList = [name.toList] := by
  have hne : name.toList.isEmpty = false := by simpa using h.ne_empty
  rw [Disk.names, parts_of_not_mem h.no_slash, List.filter_cons, hne]
  rfl

/-- Only the parts that are no names are left out of the components. -/
theorem solid_eq_filterMap_names (t : List Char) :
    solid t = (Disk.names t).filterMap Component.ofPart? := by
  rw [Disk.names, List.filterMap_filter, solid]
  congr 1
  funext part
  cases part <;> rfl

/-- A path whose last name is neither `.` nor `..` has it as its file name. -/
theorem fileName?_of_getLast?_names {n : List Char}
    (h : (Disk.names p.text.toList).getLast? = some n) (h' : n ≠ ['.']) (h'' : n ≠ ['.', '.']) :
    p.fileName? = some (String.ofList n) := by
  obtain ⟨ns, hns⟩ := List.getLast?_eq_some_iff.1 h
  have hmem : n ∈ Disk.names p.text.toList := by simp [hns]
  have hne : n ≠ [] := by
    rintro rfl
    simpa [Disk.names] using (List.mem_filter.1 hmem).2
  have hlast : p.components.getLast? = some (.normal (String.ofList n)) := by
    rw [components_eq, solid_eq_filterMap_names, hns, List.filterMap_append,
      List.filterMap_cons, ofPart?_eq_some_normal hne h' h'']
    simp
  rw [fileName?, hlast]

theorem not_mem_of_fileName? (h : p.fileName? = some name) : '/' ∉ name.toList := by
  unfold fileName? at h
  split at h
  · next n hn =>
    cases h
    have hmem := List.mem_of_getLast? hn
    rw [components_eq, List.mem_append] at hmem
    rcases hmem with hmem | hmem
    · unfold lead at hmem
      split at hmem
      · simp at hmem
      · split at hmem <;> simp at hmem
    · obtain ⟨part, hpart, hname⟩ := List.mem_filterMap.1 hmem
      unfold Component.ofPart? at hname
      split at hname
      · cases hname
      · split at hname
        · cases hname
        · cases hname
          rw [String.toList_ofList]
          exact not_mem_of_mem_parts hpart
  · cases h

end FileNames

/-! ## Parents -/

section Parents

theorem join_parts (t : List Char) : Text.join ['/'] (parts t) = t := by
  unfold parts
  induction t with
  | nil => rfl
  | cons c t ih =>
    rw [Text.fields]
    cases hf : Text.fields (· == '/') t with
    | nil => exact absurd hf (Text.fields_ne_nil _ t)
    | cons f fs =>
      rw [hf] at ih
      split
      · next hc => simpa [Text.join, beq_iff_eq.1 hc] using ih
      · cases fs <;> simpa [Text.join] using ih

theorem length_join_concat (ps : List (List Char)) (part : List Char) :
    (Text.join ['/'] (ps ++ [part])).length =
      (Text.join ['/'] ps).length + part.length + if ps = [] then 0 else 1 := by
  induction ps with
  | nil => simp [Text.join]
  | cons p ps ih =>
    cases ps with
    | nil => simp [Text.join]; omega
    | cons q ps =>
      simp only [List.cons_append, Text.join, List.length_append, List.length_singleton] at ih ⊢
      simp only [reduceCtorEq, if_false] at ih ⊢
      omega

/-- A part at the end adds to a text, unless it is empty. -/
theorem length_ofReversed_cons (part : List Char) (ps : List (List Char)) :
    (ofReversed ps).length + part.length ≤ (ofReversed (part :: ps)).length := by
  rw [ofReversed, ofReversed, List.reverse_cons, length_join_concat]
  omega

/-- Leaving out parts at the end makes a text no longer. -/
theorem length_ofReversed_le {ps qs : List (List Char)} (h : ps <:+ qs) :
    (ofReversed ps).length ≤ (ofReversed qs).length := by
  induction qs with
  | nil => simp [List.suffix_nil.1 h]
  | cons q qs ih =>
    rcases List.suffix_cons_iff.1 h with rfl | h
    · exact Nat.le_refl _
    · calc (ofReversed ps).length
          ≤ (ofReversed qs).length + q.length := Nat.le_add_right_of_le (ih h)
        _ ≤ (ofReversed (q :: qs)).length := length_ofReversed_cons q qs

theorem dropIdle_suffix (ps : List (List Char)) : dropIdle ps <:+ ps := List.dropWhile_suffix _

theorem dropIdleRelative_suffix (ps : List (List Char)) : dropIdleRelative ps <:+ ps := by
  unfold dropIdleRelative
  split
  · split
    · next h =>
      obtain ⟨qs, rfl⟩ := List.getLast?_eq_some_iff.1 h
      exact List.suffix_append qs _
    · exact List.nil_suffix
  · exact dropIdle_suffix ps

theorem ne_nil_of_dropIdle {ps rest : List (List Char)} {part : List Char}
    (h : dropIdle ps = part :: rest) : part ≠ [] := by
  have hhead := List.head?_dropWhile_not (fun part => (Component.ofPart? part).isNone) ps
  rw [show List.dropWhile _ ps = part :: rest from h] at hhead
  rintro rfl
  cases hhead

theorem ne_nil_of_dropIdleRelative {ps rest : List (List Char)} {part : List Char}
    (h : dropIdleRelative ps = part :: rest) : part ≠ [] := by
  unfold dropIdleRelative at h
  split at h
  · split at h
    · cases h
      exact List.cons_ne_nil _ _
    · cases h
  · exact ne_nil_of_dropIdle h

/-- The parent of a path is spelled shorter. -/
theorem length_parent?_lt {p q : Path} (h : p.parent? = some q) :
    q.text.toList.length < p.text.toList.length := by
  -- what is left of a text without the last part and the idle ones before it
  have hshorter : ∀ {t : List Char} {part : List Char} {rest qs : List (List Char)}, part ≠ [] →
      (part :: rest) <:+ (parts t).reverse → qs <:+ rest → (ofReversed qs).length < t.length := by
    intro t part rest qs hpart hrest hqs
    have hlen : 0 < part.length := List.length_pos_iff.2 hpart
    calc (ofReversed qs).length
        ≤ (ofReversed rest).length := length_ofReversed_le hqs
      _ < (ofReversed rest).length + part.length := by omega
      _ ≤ (ofReversed (part :: rest)).length := length_ofReversed_cons part rest
      _ ≤ (ofReversed (parts t).reverse).length := length_ofReversed_le hrest
      _ = t.length := by rw [ofReversed, List.reverse_reverse, join_parts]
  unfold parent? at h
  split at h
  · next t ht =>
    split at h
    · cases h
    · next part rest hdrop =>
      cases h
      have := hshorter (ne_nil_of_dropIdle hdrop) (hdrop ▸ dropIdle_suffix _) (dropIdle_suffix rest)
      simpa [ht] using this
  · split at h
    · cases h
    · next part rest hdrop =>
      cases h
      have := hshorter (ne_nil_of_dropIdleRelative hdrop) (hdrop ▸ dropIdleRelative_suffix _)
        (dropIdleRelative_suffix rest)
      simpa using this

end Parents

/-! ## Below a root -/

section Below

variable {p q root : Path} {ns ms : List String}

theorem components_child {name : String} (h : Plain name) (hp : p.text ≠ "") :
    (p.child name).components = p.components ++ [Component.normal name] := by
  rw [child, components_join h.isAbsolute hp, h.solid]

theorem components_descend (h : ∀ n ∈ ns, Plain n) (hp : p.text ≠ "") :
    (p.descend ns).components = p.components ++ ns.map .normal := by
  induction ns generalizing p with
  | nil => simp [descend]
  | cons n ns ih =>
    have hn : Plain n := h n List.mem_cons_self
    have hchild : (p.child n).text ≠ "" := text_join_ne_empty hn.isAbsolute hp
    have hrest := ih (fun m hm => h m (List.mem_cons_of_mem n hm)) hchild
    rw [descend, List.foldl_cons, ← descend, hrest, components_child hn hp, List.map_cons,
      List.append_assoc, List.singleton_append]

theorem dropComponents?_append (cs ds : List Component) :
    dropComponents? cs (cs ++ ds) = some ds := by
  induction cs with
  | nil => rfl
  | cons c cs ih =>
    rw [List.cons_append, dropComponents?, if_pos rfl, ih]

/-- Below a root the relative path is what was added to the root. -/
theorem relativeTo_eq (h : p.components = root.components ++ ns.map .normal) :
    root.relativeTo p = "/".intercalate ns := by
  have hkept : (ns.map Component.normal).filter (· != .current) = ns.map .normal :=
    List.filter_eq_self.2 (by simp)
  rw [relativeTo, h, dropComponents?_append]
  dsimp only
  rw [hkept, List.map_map]
  congr 1
  exact List.map_id ns

theorem normal_injective : Function.Injective Component.normal := fun a b h => by cases h; rfl

/-- Names behind the same beginning are told by the components. -/
theorem eq_of_append_normal {base : List Component}
    (h : base ++ ns.map .normal = base ++ ms.map .normal) : ns = ms :=
  (List.map_inj_right fun _ _ => @normal_injective _ _).1 (List.append_cancel_left h)

/-- Of two places below a root, the names decide which is below the other. -/
theorem isBelow_iff {base : List Component} (hp : p.components = base ++ ns.map .normal)
    (hq : q.components = base ++ ms.map .normal) : p.isBelow q = true ↔ ms <+: ns := by
  rw [isBelow, hp, hq, List.isPrefixOf_iff_prefix, List.prefix_append_right_inj]
  exact List.prefix_map_iff_of_injective normal_injective

theorem toList_intercalate_cons (n m : String) (ns : List String) :
    ("/".intercalate (n :: m :: ns)).toList =
      n.toList ++ '/' :: ("/".intercalate (m :: ns)).toList := by
  simp only [String.intercalate_cons_cons, String.toList_append, List.append_assoc]
  rfl

/-- A path of names has no characters but theirs and the slashes in between. -/
theorem mem_intercalate {c : Char} (hc : c ∈ ("/".intercalate ns).toList) :
    c = '/' ∨ ∃ n ∈ ns, c ∈ n.toList := by
  induction ns with
  | nil => simp at hc
  | cons n ns ih =>
    cases ns with
    | nil => exact .inr ⟨n, List.mem_cons_self, by simpa using hc⟩
    | cons m ns =>
      rw [toList_intercalate_cons, List.mem_append, List.mem_cons] at hc
      rcases hc with hc | rfl | hc
      · exact .inr ⟨n, List.mem_cons_self, hc⟩
      · exact .inl rfl
      · refine (ih hc).imp_right ?_
        rintro ⟨u, hu, hc⟩
        exact ⟨u, List.mem_cons_of_mem n hu, hc⟩

/-- The names of a path are found between its slashes. -/
theorem names_intercalate (h : ∀ n ∈ ns, Plain n) :
    Disk.names ("/".intercalate ns).toList = ns.map String.toList := by
  induction ns with
  | nil => rfl
  | cons n ns ih =>
    have hn : Plain n := h n List.mem_cons_self
    have hrest := ih fun m hm => h m (List.mem_cons_of_mem n hm)
    cases ns with
    | nil => simp [hn.names]
    | cons m ns =>
      rw [toList_intercalate_cons, Disk.names_append_slash, hn.names, hrest]
      rfl

theorem eq_of_intercalate_eq (hns : ∀ n ∈ ns, Plain n) (hms : ∀ n ∈ ms, Plain n)
    (h : "/".intercalate ns = "/".intercalate ms) : ns = ms := by
  have hnames : ns.map String.toList = ms.map String.toList := by
    rw [← names_intercalate hns, ← names_intercalate hms, h]
  exact (List.map_inj_right fun _ _ => String.toList_injective).1 hnames

theorem fileName?_of_components {cs : List Component} {n : String}
    (h : p.components = cs ++ [Component.normal n]) : p.fileName? = some n := by
  rw [fileName?, h, List.getLast?_concat]

/-- An extension has something before its dot, and no dot in it. -/
theorem extension?_eq_some_iff {n extension : String} (h : p.fileName? = some n) :
    p.extension? = some extension ↔
      ∃ stem, stem ≠ [] ∧ n.toList = stem ++ '.' :: extension.toList ∧ '.' ∉ extension.toList := by
  have hcut : ∀ {a b}, Text.splitLast (· == '.') n.toList = some (a, b) ↔
      n.toList = a ++ '.' :: b ∧ '.' ∉ b := by
    intro a b
    rw [Text.splitLast_eq_some_iff]
    constructor
    · rintro ⟨c, hc, hdot, hrest⟩
      cases beq_iff_eq.1 hdot
      exact ⟨hc, fun hmem => by simpa using hrest '.' hmem⟩
    · rintro ⟨hn, hrest⟩
      refine ⟨'.', hn, rfl, fun x hx => beq_eq_false_iff_ne.2 ?_⟩
      rintro rfl
      exact hrest hx
  unfold extension?
  rw [h, Option.bind_eq_bind, Option.bind_some]
  constructor
  · intro he
    split at he
    · next c stem e hsplit =>
      cases he
      rw [String.toList_ofList]
      exact ⟨c :: stem, List.cons_ne_nil c stem, hcut.1 hsplit⟩
    · cases he
  · rintro ⟨stem, hstem, hn⟩
    obtain ⟨c, stem, rfl⟩ := List.exists_cons_of_ne_nil hstem
    rw [hcut.2 hn]
    simp

end Below

end Path

end MessageHarvest
