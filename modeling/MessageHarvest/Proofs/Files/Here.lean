import MessageHarvest.Proofs.Files.Discovery

/-! # Source files below the current directory

    A path that an entry names below the root `.` starts with `.`, and a path
    that a wildcard finds there does not. Neither of them is found below the
    other. But if there are only wildcards, all paths are spelled by their names
    alone, and what is left of them below the root is what they are.

    * `text_beneath_here`, `components_beneath_here`: how such a path is spelled.
    * `expand_here_sound`, `expand_here_complete`: where wildcards lead from the
      current directory, by the first leg and the ones behind it.
    * `discover_here`: with wildcards alone the selected files are found. -/

namespace MessageHarvest

/-! ## Paths of names -/

namespace Path

variable {p : Path} {ns : List String}

theorem Plain.text_ne_empty {n : String} (h : Plain n) : n ≠ "" := by
  rintro rfl
  exact h.ne_empty rfl

/-- Names are put behind a path with a slash before each. -/
theorem text_descend (hns : ∀ n ∈ ns, Plain n) (hp : p.text ≠ "")
    (hlast : p.text.toList.getLast? ≠ some '/') :
    (p.descend ns).text = "/".intercalate (p.text :: ns) := by
  induction ns generalizing p with
  | nil => rfl
  | cons n ns ih =>
    have hn : Plain n := hns n List.mem_cons_self
    have hempty : p.text.toList.isEmpty = false := by simpa using hp
    have hchild : (p.child n).text = p.text ++ "/" ++ n := by
      simp [child, join, hn.isAbsolute, hempty, hlast]
    have hne : (p.child n).text ≠ "" := text_join_ne_empty hn.isAbsolute hp
    have hend : (p.child n).text.toList.getLast? ≠ some '/' := by
      rw [hchild, String.toList_append, List.getLast?_append_of_ne_nil _ hn.ne_empty]
      exact fun h => hn.no_slash (List.mem_of_getLast? h)
    rw [descend, List.foldl_cons, ← descend,
      ih (fun m hm => hns m (List.mem_cons_of_mem n hm)) hne hend, hchild]
    rfl

end Path

namespace Wildcard

open Disk (Trail weight)

section Here

variable {d : Disk} {ms ns : List String} {c : Disk.Content}

theorem descend_beneath_here (hms : ms ≠ []) (ns : List String) :
    (beneath ⟨"."⟩ ms).descend ns = beneath ⟨"."⟩ (ms ++ ns) := by
  obtain ⟨m, ms, rfl⟩ := List.exists_cons_of_ne_nil hms
  exact (List.foldl_append ..).symm

/-- A path from the current directory is spelled by its names alone. -/
theorem text_beneath_here (hplain : ∀ m ∈ ms, Path.Plain m) (hms : ms ≠ []) :
    (beneath ⟨"."⟩ ms).text = "/".intercalate ms := by
  obtain ⟨m, ms, rfl⟩ := List.exists_cons_of_ne_nil hms
  obtain ⟨hm, hrest⟩ := List.forall_mem_cons.1 hplain
  have hlast : m.toList.getLast? ≠ some '/' := fun h => hm.no_slash (List.mem_of_getLast? h)
  exact Path.text_descend (p := ⟨m⟩) hrest hm.text_ne_empty hlast

theorem components_beneath_here (hplain : ∀ m ∈ ms, Path.Plain m) (hms : ms ≠ []) :
    (beneath ⟨"."⟩ ms).components = ms.map .normal := by
  obtain ⟨m, ms, rfl⟩ := List.exists_cons_of_ne_nil hms
  obtain ⟨hm, hrest⟩ := List.forall_mem_cons.1 hplain
  have hfirst : (⟨m⟩ : Path).components = [.normal m] := by
    have hpart := components_of_part hm.no_slash hm.ne_current
    rw [String.ofList_toList, List.filterMap_cons,
      Path.ofPart?_eq_some_normal hm.ne_empty hm.ne_current hm.ne_parent,
      String.ofList_toList] at hpart
    exact hpart
  have hcomponents := Path.components_descend (p := ⟨m⟩) hrest hm.text_ne_empty
  rw [hfirst] at hcomponents
  exact hcomponents

/-- What stands below the current directory is spelled as below an empty root. -/
theorem node_here (hd : d.Tree) (hms : ms ≠ []) (hc : d.content? (d.here ++ ms) = some c) :
    Node d ⟨""⟩ d.here 0 (beneath ⟨"."⟩ ms) ms := by
  have hplain : ∀ m ∈ ms, Path.Plain m :=
    fun m hm => (hd.named_of_content? hc m (List.mem_append_right _ hm)).plain
  have hcomponents := components_beneath_here hplain hms
  obtain ⟨m, ms, rfl⟩ := List.exists_cons_of_ne_nil hms
  have hm : Disk.Named m := hd.named_of_content? hc m (by simp)
  have hdir : d.content? d.here = some .directory := hd.above_of_content? hms hc
  have hfollow : d.follow d.here [m.toList] = .ok (d.here ++ [m]) := by
    rw [Disk.follow_cons hdir hm.short]
    simp [Disk.follow, Disk.step, hm.plain.ne_current, hm.plain.ne_parent]
  have hfirst : Trail d ⟨m⟩ (d.here ++ [m]) := by
    have htrail := trail_of_part hm.plain.ne_empty hm.plain.no_slash hm.no_nul hfollow
    rw [String.ofList_toList] at htrail
    exact htrail
  rw [List.append_cons] at hc
  have hlength := Disk.byteLength_descend ⟨m⟩ ms
  refine ⟨hcomponents, ?_, ?_⟩
  · rw [List.append_cons]
    exact hfirst.descend hd hc
  · show Text.byteLength ((⟨m⟩ : Path).descend ms).text.toList ≤ 0 + weight (m :: ms)
    rw [weight]
    dsimp only at hlength
    omega

/-! ## Ways from the current directory -/

variable {l : Leg} {ls : List Leg} {x : Path}

/-- The first leg goes to a place below the current directory. -/
theorem next_here_sound (hroot : d.find? ⟨"."⟩ = some (d.here, .directory)) (hl : l.Tame)
    (hcost : l.cost = 0) (hx : x ∈ d.look (l.next ⟨"."⟩)) :
    ∃ ms c, l.Goes ms ∧ d.content? (d.here ++ ms) = some c ∧ x = beneath ⟨"."⟩ ms := by
  cases l with
  | name n =>
    have hstays := not_stays_of_cost hcost
    have hplain := plain_of_tame hl hstays
    obtain ⟨rfl, hthere⟩ := mem_look_name.1 hx
    rw [if_neg (not_dots_of_tame hl hstays)] at hthere
    obtain ⟨⟨q, c⟩, hq⟩ := Option.isSome_iff_exists.1 hthere
    obtain ⟨htrail, hc⟩ := Disk.trail_of_find? hq
    have hfollow := htrail.follow
    rw [show (inside ⟨"."⟩ n).text = n from rfl, hplain.names, Disk.origin,
      show (inside ⟨"."⟩ n).isAbsolute = false from hplain.isAbsolute] at hfollow
    obtain ⟨-, -, hstep⟩ := Disk.follow_cons_eq_ok hfollow
    have hplace : q = d.here ++ [n] := by
      simpa [Disk.follow, Disk.step, hplain.ne_current, hplain.ne_parent] using hstep.symm
    refine ⟨[n], c, ?_, hplace ▸ hc, rfl⟩
    rw [Leg.Goes, if_neg hstays]
  | search w =>
    obtain ⟨q, hq, hdots | ⟨n, c, hc, hn, rfl⟩⟩ := mem_look_search.1 hx
    · obtain ⟨dot, hdot, hmatch, -⟩ := hdots
      exact absurd hmatch (not_dots_of_search hl hdot)
    · rw [hroot] at hq
      cases hq
      exact ⟨[n], c, ⟨n, rfl, hn⟩, hc, rfl⟩
  | deep last? =>
    obtain ⟨q, hq, ms, c, hc, hgoes, -, rfl⟩ := mem_look_deep.1 hx
    rw [hroot] at hq
    cases hq
    exact ⟨ms, c, hgoes, hc, rfl⟩

/-- Every directory that the first leg can go to is found, if its path is not
    too long. -/
theorem next_here_complete (hd : d.Tree) (hroot : d.find? ⟨"."⟩ = some (d.here, .directory))
    (hl : l.Tame) (hcost : l.cost = 0) (hgoes : l.Goes ms)
    (hdir : d.content? (d.here ++ ms) = some .directory) (hsize : weight ms ≤ 4095) :
    beneath ⟨"."⟩ ms ∈ d.look (l.next ⟨"."⟩) := by
  cases l with
  | name n =>
    have hstays := not_stays_of_cost hcost
    rw [Leg.Goes, if_neg hstays] at hgoes
    subst hgoes
    have hnode := node_here hd (List.cons_ne_nil n []) hdir
    have hfound := hnode.trail.find? (by have := hnode.size; omega) hdir (.inr rfl)
    refine mem_look_name.2 ⟨rfl, ?_⟩
    rw [if_neg (not_dots_of_tame hl hstays)]
    exact Option.isSome_iff_exists.2 ⟨_, hfound⟩
  | search w =>
    obtain ⟨n, rfl, hn⟩ := hgoes
    exact mem_look_search.2 ⟨_, hroot, .inr ⟨n, _, hdir, hn, rfl⟩⟩
  | deep last? => exact mem_look_deep.2 ⟨_, hroot, ms, _, hdir, hgoes, fun _ => rfl, rfl⟩

theorem ne_nil_of_leads (hcost : cost (l :: ls) = 0) (h : Leads (l :: ls) ms) : ms ≠ [] := by
  rw [cost, Nat.add_eq_zero_iff] at hcost
  obtain ⟨ms, ns, rfl, hgoes, -⟩ := h
  simp [ne_nil_of_goes hcost.1 hgoes]

/-- A way goes to places below the current directory. -/
theorem expand_here_sound (hd : d.Tree) (hroot : d.find? ⟨"."⟩ = some (d.here, .directory))
    (hls : ∀ l' ∈ l :: ls, l'.Tame) (hcost : cost (l :: ls) = 0)
    (hx : x ∈ d.look (expand (l :: ls) ⟨"."⟩)) :
    ∃ ms, Leads (l :: ls) ms ∧ x = beneath ⟨"."⟩ ms ∧ Node d ⟨""⟩ d.here 0 x ms := by
  obtain ⟨hl, hls⟩ := List.forall_mem_cons.1 hls
  rw [cost, Nat.add_eq_zero_iff] at hcost
  rw [look_expand_cons, List.mem_flatMap] at hx
  obtain ⟨p, hp, hx⟩ := hx
  obtain ⟨ms, c, hgoes, hc, rfl⟩ := next_here_sound hroot hl hcost.1 hp
  have hms := ne_nil_of_goes hcost.1 hgoes
  obtain ⟨ns, hleads, hnode, hdescend⟩ :=
    expand_sound hd (by decide) hls (node_here hd hms hc) hx
  rw [hcost.2] at hnode
  refine ⟨ms ++ ns, ⟨ms, ns, rfl, hgoes, hleads⟩, ?_, hnode⟩
  rw [hdescend hcost.2, descend_beneath_here hms]

/-- Every directory that a way can go to is found, if its path is not too long. -/
theorem expand_here_complete (hd : d.Tree) (hroot : d.find? ⟨"."⟩ = some (d.here, .directory))
    (hls : ∀ l' ∈ l :: ls, l'.Tame) (hcost : cost (l :: ls) = 0) (hleads : Leads (l :: ls) ms)
    (hdir : d.content? (d.here ++ ms) = some .directory) (hsize : weight ms ≤ 4095) :
    beneath ⟨"."⟩ ms ∈ d.look (expand (l :: ls) ⟨"."⟩) := by
  obtain ⟨hl, hls⟩ := List.forall_mem_cons.1 hls
  rw [cost, Nat.add_eq_zero_iff] at hcost
  obtain ⟨ms, ns, rfl, hgoes, hrest⟩ := hleads
  have hweight := Disk.weight_append ms ns
  have hassoc : d.content? (d.here ++ ms ++ ns) = some .directory := by
    rw [List.append_assoc]
    exact hdir
  have hfirst := hd.directory_of_append hassoc
  have hms := ne_nil_of_goes hcost.1 hgoes
  have hnext := next_here_complete hd hroot hl hcost.1 hgoes hfirst (by omega)
  have hnode := node_here hd hms hfirst
  obtain ⟨x, hx, hfound⟩ := expand_complete hd (by decide) hls hnode hrest hdir (by omega)
  -- the path that is found has no other names than these
  obtain ⟨ns', -, hfound', hdescend⟩ := expand_sound hd (by decide) hls hnode hx
  have hnames : ns' = ns := List.append_cancel_left
    (Path.eq_of_append_normal (hfound'.components.symm.trans hfound.components))
  rw [look_expand_cons, List.mem_flatMap]
  refine ⟨_, hnext, ?_⟩
  rw [← descend_beneath_here hms, ← hnames, ← hdescend hcost.2]
  exact hx

end Here

/-! ## Wildcards from the current directory -/

section Directories

variable {d : Disk} {x : Path} {e : String} {ws : List Wildcard}

theorem legs_ne_nil (h : ws ≠ []) : legs ws ≠ [] := by
  fun_induction legs ws with
  | case1 => exact absurd rfl h
  | case2 => exact List.cons_ne_nil _ _
  | case3 => exact List.cons_ne_nil _ _
  | case4 w v ws _ _ ih => exact ih (List.cons_ne_nil v ws)
  | case5 => exact List.cons_ne_nil _ _

theorem cost_eq_zero {ls : List Leg} (h : ∀ l ∈ ls, l.cost = 0) : cost ls = 0 := by
  induction ls with
  | nil => rfl
  | cons l ls ih =>
    obtain ⟨hl, hls⟩ := List.forall_mem_cons.1 h
    rw [cost, hl, ih hls]

/-- No leg of an entry stays where it is if no part does. -/
theorem cost_legs_eq_zero (hparts : ∀ b ∈ Path.parts e.toList, b ≠ [] ∧ b ≠ ['.'])
    (h : ofParts e.toList = .ok ws) : cost (legs ws) = 0 := by
  refine cost_eq_zero fun l hl => ?_
  rcases mem_legs hl with ⟨w, hw, rfl⟩ | ⟨v?, rfl⟩
  · unfold Leg.ofWildcard
    split
    · next s hs =>
      obtain ⟨b, hb, hparse⟩ := parse_of_mem_ofParts h hw
      obtain ⟨hempty, hdot⟩ := hparts b hb
      rw [literal_of_parse hparse hs, Leg.cost, if_neg]
      rintro (e | e)
      · exact hempty (by simpa using congrArg String.toList e)
      · exact hdot (by simpa using congrArg String.toList e)
    · split
      · rfl
      · rfl
  · rfl

/-- An entry has a part, and so it has a leg. -/
theorem exists_leg (hparts : ∀ b ∈ Path.parts e.toList, b ≠ [] ∧ b ≠ ['.'])
    (h : ofParts e.toList = .ok ws) : ∃ l ls, legs ws = l :: ls := by
  refine List.exists_cons_of_ne_nil (legs_ne_nil ?_)
  rintro rfl
  unfold ofParts at h
  dsimp only at h
  rw [if_neg fun hlast => (hparts [] (List.mem_of_getLast? hlast)).1 rfl] at h
  obtain ⟨b, bs, hbs⟩ := List.exists_cons_of_ne_nil (Text.fields_ne_nil (· == '/') e.toList)
  rw [show Path.parts e.toList = b :: bs from hbs, List.mapM_cons] at h
  obtain ⟨w, -, h⟩ := bind_eq_ok_iff.1 h
  obtain ⟨ws, -, h⟩ := bind_eq_ok_iff.1 h
  cases h

/-- The dot of the root leads nowhere. -/
theorem mem_directories_here (hroot : d.find? ⟨"."⟩ = some (d.here, .directory))
    (hrelative : (⟨e⟩ : Path).isAbsolute = false) (hvalid : ∃ w, parse e.toList = .ok w) :
    x ∈ d.look (directories ((⟨"."⟩ : Path).join ⟨e⟩)) ↔ ∃ ws, ofParts e.toList = .ok ws ∧
      x ∈ d.look (expand (legs ws) ⟨"."⟩) ∧ ∃ q, d.find? x = some (q, .directory) := by
  have htext : ((⟨"."⟩ : Path).join ⟨e⟩).text.toList = '.' :: '/' :: e.toList := by
    simp [Path.join, hrelative]
  have hread : ∃ w, parse ((⟨"."⟩ : Path).join ⟨e⟩).text.toList = .ok w := by
    obtain ⟨w, hw⟩ := hvalid
    rw [htext]
    exact parse_below (s := ['.', '/']) (List.all_eq_true.1 rfl) rfl hw
  have hparts : Path.parts ((⟨"."⟩ : Path).join ⟨e⟩).text.toList =
      [['.']] ++ Path.parts e.toList := by
    rw [htext]
    exact Path.parts_append_slash ['.'] e.toList
  have hstay : ∀ x, x ∈ d.look (Leg.next ⟨"."⟩ (.name ".")) ↔ x = ⟨"."⟩ := by
    intro x
    rw [mem_look_name, if_pos (.inl rfl)]
    exact and_iff_left ⟨_, hroot⟩
  refine mem_directories_of_expand hread ?_ (by simp [isPlain]) hparts
    (fun ls x => expand_of_next hstay ls x) x
  rw [Path.isAbsolute, htext]
  rfl

end Directories

end Wildcard

/-! ## Source files -/

namespace SourceFiles

open Wildcard (Searchable Describes beneath)

section Discover

variable {d : Disk} {r : Place} {includes ignores : List String} {e : String} {ms : List String}

/-- A wildcard that is searched for from the current directory. The paths that
    are found do not start with `.`, as if the root were empty. -/
structure SearchableHere (d : Disk) (r : Place) (e : String) : Prop
    extends Entry e, Searchable d ⟨""⟩ r e where
  wild : Wildcard.hasPlaceholder e.toList = true
  /-- No part of it is left out of the paths that are found. -/
  straight : ∀ b ∈ Path.parts e.toList, b ≠ [] ∧ b ≠ ['.']

theorem SearchableHere.opens_iff (h : SearchableHere d r e) :
    Opens d r e ms ↔ Describes e ms ∧ d.content? (r ++ ms) = some .directory := by
  rw [Opens, if_pos h.wild]

/-- A wildcard has a first leg, and no leg of it stays or goes up. -/
theorem SearchableHere.exists_legs (h : SearchableHere d r e) {ws : List Wildcard}
    (hws : Wildcard.ofParts e.toList = .ok ws) :
    ∃ l ls, Wildcard.legs ws = l :: ls ∧ (∀ l' ∈ l :: ls, l'.Tame) ∧
      Wildcard.cost (l :: ls) = 0 := by
  have htame := Wildcard.tame_of_ofParts hws h.parent_not_mem_parts (h.tame ws hws)
  have hcost := Wildcard.cost_legs_eq_zero h.straight hws
  obtain ⟨l, ls, hlegs⟩ := Wildcard.exists_leg h.straight hws
  rw [hlegs] at htame hcost
  exact ⟨l, ls, hlegs, htame, hcost⟩

theorem SearchableHere.ne_nil_of_opens (h : SearchableHere d r e) (hopens : Opens d r e ms) :
    ms ≠ [] := by
  obtain ⟨⟨ws, hws, hleads⟩, -⟩ := h.opens_iff.1 hopens
  obtain ⟨l, ls, hlegs, -, hcost⟩ := h.exists_legs hws
  rw [hlegs] at hleads
  exact Wildcard.ne_nil_of_leads hcost hleads

/-- A wildcard stands for the directories that it describes. -/
theorem begins_here_iff (hd : d.Tree) (hroot : d.find? ⟨"."⟩ = some (d.here, .directory))
    (h : SearchableHere d d.here e) {x : Path} :
    Begins d ⟨"."⟩ e x ↔ ∃ ms, Opens d d.here e ms ∧ x = beneath ⟨"."⟩ ms := by
  rw [Begins, if_pos h.wild, Wildcard.mem_directories_here hroot h.relative h.valid]
  constructor
  · rintro ⟨ws, hws, hx, q, hq⟩
    obtain ⟨l, ls, hlegs, htame, hcost⟩ := h.exists_legs hws
    rw [hlegs] at hx
    obtain ⟨ms, hleads, hspelled, hnode⟩ := Wildcard.expand_here_sound hd hroot htame hcost hx
    obtain ⟨-, hdir⟩ := hnode.place_eq hq
    rw [← hlegs] at hleads
    exact ⟨ms, h.opens_iff.2 ⟨⟨ws, hws, hleads⟩, hdir⟩, hspelled⟩
  · rintro ⟨ms, hms, rfl⟩
    have hne := h.ne_nil_of_opens hms
    obtain ⟨⟨ws, hws, hleads⟩, hdir⟩ := h.opens_iff.1 hms
    obtain ⟨l, ls, hlegs, htame, hcost⟩ := h.exists_legs hws
    have hfits := h.fits hdir
    have hnode := Wildcard.node_here hd hne hdir
    have hfound := hnode.trail.find? (by have := hnode.size; omega) hdir (.inr rfl)
    refine ⟨ws, hws, ?_, _, hfound⟩
    rw [hlegs] at hleads ⊢
    exact Wildcard.expand_here_complete hd hroot htame hcost hleads hdir (by omega)

/-- Paths of names are what they are below the current directory, unless a name
    has a backslash. -/
theorem spelled_here {ns : List String} (hns : ns ≠ []) (hplain : ∀ n ∈ ns, Path.Plain n)
    (hclear : ∀ n ∈ ns, '\\' ∉ n.toList) : Spelled ⟨"."⟩ [] (beneath ⟨"."⟩ ns) ns := by
  have hcomponents := Wildcard.components_beneath_here hplain hns
  refine ⟨hcomponents, ?_⟩
  have hapart : Path.dropComponents? (⟨"."⟩ : Path).components (beneath ⟨"."⟩ ns).components =
      none := by
    obtain ⟨n, ns, rfl⟩ := List.exists_cons_of_ne_nil hns
    rw [hcomponents]
    rfl
  have hsame : ∀ c ∈ ("/".intercalate ns).toList, (if c = '\\' then '/' else c) = c := by
    intro c hc
    refine if_neg ?_
    rintro rfl
    obtain ⟨n, hn, hc⟩ := (Path.mem_intercalate hc).resolve_left (by decide)
    exact hclear n hn hc
  rw [Path.relativeTo, hapart, Wildcard.text_beneath_here hplain hns]
  dsimp only
  rw [List.map_congr_left hsame, List.map_id', String.ofList_toList]

theorem start_here (hd : d.Tree) (hclear : ∀ f ∈ d.below d.here, ∀ n ∈ f.1, '\\' ∉ n.toList)
    (h : SearchableHere d d.here e) (hopens : Opens d d.here e ms) :
    Start d ⟨"."⟩ [] d.here ms (beneath ⟨"."⟩ ms) := by
  obtain ⟨-, hdir⟩ := h.opens_iff.1 hopens
  have hms := h.ne_nil_of_opens hopens
  have hfits := h.fits hdir
  have hnode := Wildcard.node_here hd hms hdir
  refine ⟨⟨_, hnode.trail.find? (by have := hnode.size; omega) hdir (.inr rfl)⟩, ?_⟩
  intro ns bytes hfile
  have hne : ms ++ ns ≠ [] := by simp [hms]
  rw [Wildcard.descend_beneath_here hms]
  refine spelled_here hne (fun n hn => ?_) ?_
  · exact (hd.named_of_content? hfile n (List.mem_append_right _ hn)).plain
  · exact hclear _ (Disk.mem_below.2 ⟨hne, _, hfile, rfl⟩)

/-- The dot is the current directory. -/
theorem eq_here {c : Disk.Content} (hroot : d.find? ⟨"."⟩ = some (r, c)) : r = d.here := by
  obtain ⟨htrail, -⟩ := Disk.trail_of_find? hroot
  have hfollow : d.follow d.here [['.']] = .ok r := htrail.follow
  obtain ⟨-, -, hstay⟩ := Disk.follow_cons_eq_ok hfollow
  cases hstay
  rfl

/-- An ignored wildcard is matched against names, however paths are spelled. -/
theorem aligned_of_wild {root : Path} {base : List Path.Component}
    (h : ∀ e ∈ ignores, Wildcard.hasPlaceholder e.toList = true) : Aligned root base ignores := by
  intro e he hplain
  rw [h e he] at hplain
  cases hplain

/-- A wildcard is never missing. -/
theorem exists_discovered (hincludes : ∀ e ∈ includes, SearchableHere d r e) :
    ∃ s, d.look (discover ⟨"."⟩ includes ignores) = .ok s := by
  cases hs : d.look (discover ⟨"."⟩ includes ignores) with
  | ok s => exact ⟨s, rfl⟩
  | error p =>
    obtain ⟨e, he, hplain, -⟩ := (discover_eq_error_iff d ⟨"."⟩ includes ignores).1 ⟨p, hs⟩
    rw [(hincludes e he).wild] at hplain
    cases hplain

/-- What is found through wildcards from the current directory: the paths begin
    with a name. -/
theorem finds_here (hd : d.Tree) (hroot : d.find? ⟨"."⟩ = some (d.here, .directory))
    (hincludes : ∀ e ∈ includes, SearchableHere d d.here e)
    (hignores : ∀ e ∈ ignores, Wildcard.hasPlaceholder e.toList = true)
    (hclear : ∀ f ∈ d.below d.here, ∀ n ∈ f.1, '\\' ∉ n.toList) (hne : includes ≠ [])
    {s : SourceFiles} (hs : d.look (discover ⟨"."⟩ includes ignores) = .ok s) :
    Finds ⟨"."⟩ [] (Selected d d.here includes ignores) s.files := by
  obtain ⟨-, hdir⟩ := Disk.trail_of_find? hroot
  rw [look_discover] at hs
  obtain ⟨ps, hplaces, rfl⟩ := map_eq_ok_iff.1 hs
  have hspec := places_spec d ⟨"."⟩ includes
  rw [hplaces] at hspec
  obtain ⟨-, hmem⟩ := hspec
  -- there are entries, so the root itself is none of the places
  have hbegins : ∀ p, p ∈ ps ↔ ∃ e ∈ includes, Begins d ⟨"."⟩ e p := by
    intro p
    rw [hmem, or_iff_right fun h => hne h.1]
  refine finds_gather hd hdir (aligned_of_wild hignores) ?_ ?_
  · intro p hp
    obtain ⟨e, he, hp⟩ := (hbegins p).1 hp
    obtain ⟨ms, hopens, rfl⟩ := (begins_here_iff hd hroot (hincludes e he)).1 hp
    exact ⟨ms, .inr ⟨e, he, hopens⟩, start_here hd hclear (hincludes e he) hopens⟩
  · rintro ms (⟨hnil, -⟩ | ⟨e, he, hopens⟩)
    · exact absurd hnil hne
    · have hp := (begins_here_iff hd hroot (hincludes e he)).2 ⟨ms, hopens, rfl⟩
      exact ⟨_, (hbegins _).2 ⟨e, he, hp⟩, start_here hd hclear (hincludes e he) hopens⟩

/-- From the current directory, with wildcards alone, the selected files are
    found, and no file twice. -/
theorem discover_here (hd : d.Tree) (hroot : d.find? ⟨"."⟩ = some (r, .directory))
    (hincludes : ∀ e ∈ includes, SearchableHere d r e)
    (hignores : ∀ e ∈ ignores, Wildcard.hasPlaceholder e.toList = true)
    (hclear : ∀ f ∈ d.below r, ∀ n ∈ f.1, '\\' ∉ n.toList) :
    ∃ s, d.look (discover ⟨"."⟩ includes ignores) = .ok s ∧
      (s.files.toList.map (Path.relativeTo ⟨"."⟩)).Nodup ∧
        ∀ t, t ∈ s.files.toList.map (Path.relativeTo ⟨"."⟩) ↔
          ∃ ns, Selected d r includes ignores ns ∧ t = "/".intercalate ns := by
  cases eq_here hroot
  obtain ⟨s, hs⟩ := exists_discovered hincludes
  refine ⟨s, hs, ?_⟩
  by_cases hempty : includes = []
  · -- the root itself is looked at, and all paths begin with it
    subst hempty
    exact (finds_discover hd hroot (by simp) (aligned_of_wild hignores) (by simp) hs).exact hd
  · exact (finds_here hd hroot hincludes hignores hclear hempty hs).exact hd

theorem discover_here_sample :
    ∃ s, sampleHere.look (discover ⟨"."⟩ ["s*"] ["src/g*"]) = .ok s ∧
      (s.files.toList.map (Path.relativeTo ⟨"."⟩)).Nodup ∧
        ∀ t, t ∈ s.files.toList.map (Path.relativeTo ⟨"."⟩) ↔
          ∃ ns, Selected sampleHere ["p"] ["s*"] ["src/g*"] ns ∧ t = "/".intercalate ns := by
  have hread : Wildcard.ofParts "s*".toList = .ok [⟨[.char 's', .sequence]⟩] := by decide +kernel
  have hsearch : SearchableHere sampleHere ["p"] "s*" := by
    refine ⟨by decide +kernel, ⟨⟨⟨[.char 's', .sequence]⟩, by decide +kernel⟩,
      List.all_eq_true.1 rfl, by decide +kernel, ?_, by decide +kernel⟩, rfl, by decide +kernel⟩
    intro ws hws
    rw [hread] at hws
    cases hws
    decide +kernel
  have hincludes : ∀ e ∈ ["s*"], SearchableHere sampleHere ["p"] e := by
    intro e he
    rw [List.mem_singleton.1 he]
    exact hsearch
  exact discover_here (by decide +kernel) (by decide +kernel) hincludes (by decide +kernel)
    (by decide +kernel)

end Discover

end SourceFiles

end MessageHarvest
