import MessageHarvest.Proofs.Files.Expansion

/-! # Wildcards below a root

    A wildcard below a root is one pattern, the root included, that is followed
    from the current directory or from the root of the disk. If the root has no
    placeholders and does not start with `.`, its parts lead to one path, which
    spells the root. From there on the wildcard decides.

    * `expand_absolute`, `expand_relative`: the parts of a root.
    * `expand_root`: what is left to do behind them.
    * `stands_of_mem_directories`, `exists_mem_directories`: the directories that
      are found are those that the entry describes. -/

namespace MessageHarvest.Wildcard

open Disk (Tree Trail weight)

/-! ## The way to a root -/

section Root

variable {d : Disk} {p root : Path} {q r : Place}

/-- The bytes that parts add to a path at most. -/
def spread : List (List Char) → Nat
  | [] => 0
  | b :: parts => Text.byteLength b + 1 + spread parts

theorem spread_parts (t : List Char) : spread (Path.parts t) = Text.byteLength t + 1 := by
  unfold Path.parts
  induction t with
  | nil => rfl
  | cons c t ih =>
    have hcons : Text.byteLength (c :: t) = Text.byteLength [c] + Text.byteLength t :=
      Text.byteLength_append [c] t
    rw [Text.fields]
    split
    · next hc =>
      rw [beq_iff_eq] at hc
      subst hc
      rw [spread, ih, hcons, show Text.byteLength [] = 0 from rfl,
        show Text.byteLength ['/'] = 1 from rfl]
      omega
    · cases hf : Text.fields (· == '/') t with
      | nil => exact absurd hf (Text.fields_ne_nil _ t)
      | cons f fs =>
        have hfirst : Text.byteLength (c :: f) = Text.byteLength [c] + Text.byteLength f :=
          Text.byteLength_append [c] f
        rw [hf] at ih
        rw [spread] at ih ⊢
        omega

theorem spread_append (bs cs : List (List Char)) : spread (bs ++ cs) = spread bs + spread cs := by
  induction bs with
  | nil => simp [spread]
  | cons b bs ih =>
    rw [List.cons_append, spread, spread, ih]
    omega

theorem current_not_mem_filterMap (parts : List (List Char)) :
    Path.Component.current ∉ parts.filterMap Path.Component.ofPart? := by
  intro hmem
  obtain ⟨b, -, hb⟩ := List.mem_filterMap.1 hmem
  unfold Path.Component.ofPart? at hb
  split at hb
  · cases hb
  · split at hb <;> cases hb

/-- A directory is reached from directories only. -/
theorem directory_of_follow {names : List (List Char)} (h : d.follow q names = .ok r)
    (hr : d.content? r = some .directory) : d.content? q = some .directory := by
  cases names with
  | nil =>
    cases h
    exact hr
  | cons name names => exact (Disk.follow_cons_eq_ok h).1

theorem relative_of_part {b : List Char} (hb : '/' ∉ b) :
    (⟨String.ofList b⟩ : Path).isAbsolute = false := by
  rw [Path.isAbsolute, beq_eq_false_iff_ne, String.toList_ofList]
  exact fun e => hb (List.mem_of_mem_head? e)

theorem components_of_part {b : List Char} (hb : '/' ∉ b) (hdot : b ≠ ['.']) :
    (⟨String.ofList b⟩ : Path).components = [b].filterMap Path.Component.ofPart? := by
  rw [Path.components_eq, Path.lead, relative_of_part hb, Path.solid, String.toList_ofList,
    Path.parts_of_not_mem hb]
  simp [hdot]

theorem trail_of_part {b : List Char} (hne : b ≠ []) (hb : '/' ∉ b) (hnul : '\x00' ∉ b)
    (hq : d.follow d.here [b] = .ok q) : Trail d ⟨String.ofList b⟩ q := by
  have hempty : b.isEmpty = false := by simpa using hne
  refine ⟨?_, ?_, ?_⟩
  · exact fun e => hne (by simpa using congrArg String.toList e)
  · rw [String.toList_ofList]
    exact hnul
  · rw [Disk.origin, relative_of_part hb, String.toList_ofList, Disk.names,
      Path.parts_of_not_mem hb, List.filter_cons, hempty]
    exact hq

/-- A leg that leads to one path. -/
theorem expand_of_next {l : Leg} {p' : Path} (h : ∀ x, x ∈ d.look (l.next p) ↔ x = p')
    (ls : List Leg) (x : Path) :
    x ∈ d.look (expand (l :: ls) p) ↔ x ∈ d.look (expand ls p') := by
  rw [look_expand_cons, List.mem_flatMap]
  constructor
  · rintro ⟨x', hx', hx⟩
    rw [(h x').1 hx'] at hx
    exact hx
  · intro hx
    exact ⟨p', (h p').2 rfl, hx⟩

/-- The first part is looked up in the current directory, and leaves no trace of
    it. -/
theorem next_here {b : List Char} (hfound : d.find? ⟨String.ofList b⟩ = some (q, .directory))
    (hq : d.follow d.here [b] = .ok q) (x : Path) :
    x ∈ d.look (Leg.next ⟨"."⟩ (.name (String.ofList b))) ↔ x = ⟨String.ofList b⟩ := by
  rw [mem_look_name, show inside ⟨"."⟩ (String.ofList b) = ⟨String.ofList b⟩ from rfl, hfound,
    and_iff_left]
  split
  · have hhere : d.content? d.here = some .directory := (Disk.follow_cons_eq_ok hq).1
    have hstart : Trail d ⟨"."⟩ d.here := by
      refine ⟨by decide, by decide, ?_⟩
      rw [show Disk.names (⟨"."⟩ : Path).text.toList = [['.']] by decide,
        show d.origin ⟨"."⟩ = d.here from rfl, Disk.follow_cons hhere (by decide)]
      rfl
    exact ⟨_, hstart.find? (by decide) hhere (.inr rfl)⟩
  · rfl

/-- A part that leads on to a directory is reachable, whether it is looked up or
    taken for granted. -/
theorem next_part (hp : Trail d p q) (hcurrent : .current ∉ p.components) {b : List Char}
    (hslash : '/' ∉ b) (hnul : '\x00' ∉ b) {q' : Place}
    (hq : d.follow q (Disk.names b) = .ok q') (hdir : d.content? q' = some .directory)
    (hsize : Text.byteLength p.text.toList + Text.byteLength b + 1 ≤ 4095) :
    Trail d (p.child (String.ofList b)) q' ∧
      ∀ x, x ∈ d.look (Leg.next p (.name (String.ofList b))) ↔ x = p.child (String.ofList b) := by
  have htrail : Trail d (p.child (String.ofList b)) q' :=
    hp.join (relative_of_part hslash) (by rwa [String.toList_ofList])
      (by rwa [String.toList_ofList])
  have hlength := p.byteLength_child (String.ofList b)
  rw [String.toList_ofList] at hlength
  have hfind : d.find? p = some (q, .directory) :=
    hp.find? (by omega) (directory_of_follow hq hdir) (.inr rfl)
  have hfind' : d.find? (p.child (String.ofList b)) = some (q', .directory) :=
    htrail.find? (by omega) hdir (.inr rfl)
  refine ⟨htrail, fun x => ?_⟩
  rw [mem_look_name, inside_eq_child hcurrent, hfind, hfind', and_iff_left]
  split
  · exact ⟨q, rfl⟩
  · rfl

/-- Plain parts that lead to a directory lead to one path. -/
theorem expand_parts {parts : List (List Char)} (hslash : ∀ b ∈ parts, '/' ∉ b)
    (hnul : ∀ b ∈ parts, '\x00' ∉ b) (hp : Trail d p q) (hcurrent : .current ∉ p.components)
    (hfollow : d.follow q (parts.filter fun b => !b.isEmpty) = .ok r)
    (hdir : d.content? r = some .directory)
    (hsize : Text.byteLength p.text.toList + spread parts ≤ 4095) :
    ∃ p', Trail d p' r ∧ p'.components = p.components ++ parts.filterMap Path.Component.ofPart? ∧
      Text.byteLength p'.text.toList ≤ Text.byteLength p.text.toList + spread parts ∧
      ∀ ls x, x ∈ d.look (expand ((parts.map fun b => Leg.name (String.ofList b)) ++ ls) p) ↔
        x ∈ d.look (expand ls p') := by
  induction parts generalizing p q with
  | nil =>
    cases hfollow
    exact ⟨p, hp, by simp, by simp [spread], fun ls x => Iff.rfl⟩
  | cons b parts ih =>
    have hb : '/' ∉ b := hslash b List.mem_cons_self
    -- the names of one part come before those of the others
    have hnames : (b :: parts).filter (fun b => !b.isEmpty) =
        Disk.names b ++ parts.filter fun b => !b.isEmpty := by
      rw [Disk.names, Path.parts_of_not_mem hb, ← List.filter_append]
      rfl
    rw [spread] at hsize ⊢
    rw [hnames, Disk.follow_append] at hfollow
    obtain ⟨q', hq, hrest⟩ := bind_eq_ok_iff.1 hfollow
    obtain ⟨htrail, hnext⟩ := next_part hp hcurrent hb (hnul b List.mem_cons_self) hq
      (directory_of_follow hrest hdir) (by omega)
    have hcomponents : (p.child (String.ofList b)).components =
        p.components ++ [b].filterMap Path.Component.ofPart? := by
      rw [Path.child, Path.components_join (relative_of_part hb) hp.ne_empty, Path.solid,
        String.toList_ofList, Path.parts_of_not_mem hb]
    have hcurrent' : .current ∉ (p.child (String.ofList b)).components := by
      rw [hcomponents, List.mem_append, not_or]
      exact ⟨hcurrent, current_not_mem_filterMap [b]⟩
    have hlength := p.byteLength_child (String.ofList b)
    rw [String.toList_ofList] at hlength
    obtain ⟨p', htrail', hcomponents', hsize', hexpand⟩ :=
      ih (fun b' hb' => hslash b' (List.mem_cons_of_mem b hb'))
        (fun b' hb' => hnul b' (List.mem_cons_of_mem b hb')) htrail hcurrent' hrest (by omega)
    refine ⟨p', htrail', ?_, by omega, fun ls x => ?_⟩
    · rw [hcomponents', hcomponents, List.append_assoc, ← List.filterMap_append]
      rfl
    · rw [List.map_cons, List.cons_append, expand_of_next hnext]
      exact hexpand ls x

/-- A path without the slash that it may end in. -/
structure Trimmed (root : Path) (s : List Char) : Prop where
  ne_empty : root.text ≠ ""
  spelled : root.text.toList = s ∨ root.text.toList = s ++ ['/']

namespace Trimmed

variable {s : List Char}

theorem additive (h : Trimmed root s) {β : Type} {f : List Char → List β}
    (hf : ∀ s t, f (s ++ '/' :: t) = f s ++ f t) (hnil : f [] = []) : f root.text.toList = f s := by
  rcases h.spelled with hs | hs
  · rw [hs]
  · rw [hs, hf, hnil, List.append_nil]

theorem byteLength_le (h : Trimmed root s) :
    Text.byteLength s ≤ Text.byteLength root.text.toList := by
  rcases h.spelled with hs | hs
  · rw [hs]
  · rw [hs, Text.byteLength_append]
    omega

theorem mem (h : Trimmed root s) {c : Char} (hc : c ∈ s) : c ∈ root.text.toList := by
  rcases h.spelled with hs | hs <;> simp [hs, hc]

/-- The first part of a path is empty if and only if the path is absolute. -/
theorem parts_eq (h : Trimmed root s) :
    ∃ b parts, Path.parts s = b :: parts ∧ (b = [] ↔ root.isAbsolute = true) ∧
      root.lead = if root.isAbsolute then [.root] else if b = ['.'] then [.current] else [] := by
  have hchars : root.text.toList ≠ [] :=
    fun e => h.ne_empty (by simpa using congrArg String.ofList e)
  obtain ⟨b, parts, hparts⟩ := List.exists_cons_of_ne_nil (Text.fields_ne_nil (· == '/') s)
  have hparts : Path.parts s = b :: parts := hparts
  refine ⟨b, parts, hparts, ?_, ?_⟩
  · cases s with
    | nil =>
      have hslash : root.text.toList = ['/'] := by
        rcases h.spelled with hs | hs
        · exact absurd hs hchars
        · exact hs
      have hb : b = [] := (List.cons.inj hparts).1.symm
      simp [hb, Path.isAbsolute, hslash]
    | cons c s =>
      have habsolute : root.isAbsolute = true ↔ c = '/' := by
        rcases h.spelled with hs | hs <;> simp [Path.isAbsolute, hs]
      rw [habsolute]
      rw [Path.parts, Text.fields] at hparts
      split at hparts
      · next hc =>
        have hb : b = [] := (List.cons.inj hparts).1.symm
        exact ⟨fun _ => beq_iff_eq.1 hc, fun _ => hb⟩
      · next hc =>
        have hne : c ≠ '/' := fun e => hc (beq_iff_eq.2 e)
        have hb : b ≠ [] := by
          split at hparts
          · rw [← (List.cons.inj hparts).1]
            exact List.cons_ne_nil _ _
          · rw [← (List.cons.inj hparts).1]
            exact List.cons_ne_nil _ _
        exact ⟨fun e => absurd e hb, fun e => absurd e hne⟩
  · have hhead : (Path.parts root.text.toList).head? = some b := by
      rcases h.spelled with hs | hs
      · rw [hs, hparts]
        rfl
      · rw [hs, Path.parts_append_slash, hparts]
        rfl
    rw [Path.lead, hhead]
    simp

end Trimmed

/-- The path that some parts lead to from the first one of a root. -/
theorem node_of_parts (hroot : d.find? root = some (r, .directory)) {s : List Char}
    (hs : Trimmed root s) {parts : List (List Char)} (hparts : parts ⊆ Path.parts s)
    (hp : Trail d p q) (hcurrent : .current ∉ p.components)
    (hfollow : d.follow q (parts.filter fun b => !b.isEmpty) = .ok r)
    (hcomponents : root.components = p.components ++ parts.filterMap Path.Component.ofPart?)
    (hspread : Text.byteLength p.text.toList + spread parts ≤ Text.byteLength root.text.toList + 1)
    (hsize : Text.byteLength root.text.toList + 1 ≤ 4095) :
    ∃ p₀, Node d root r (Text.byteLength root.text.toList + 1) p₀ [] ∧
      ∀ ls x, x ∈ d.look (expand ((parts.map fun b => Leg.name (String.ofList b)) ++ ls) p) ↔
        x ∈ d.look (expand ls p₀) := by
  obtain ⟨htrail, hdir⟩ := Disk.trail_of_find? hroot
  have hslash : ∀ b ∈ parts, '/' ∉ b := fun b hb => Path.not_mem_of_mem_parts (hparts hb)
  have hnul : ∀ b ∈ parts, '\x00' ∉ b :=
    fun b hb hmem => htrail.no_nul (hs.mem (Path.mem_of_mem_parts (hparts hb) hmem))
  obtain ⟨p₀, htrail₀, hcomponents₀, hsize₀, hexpand⟩ :=
    expand_parts hslash hnul hp hcurrent hfollow hdir (by omega)
  refine ⟨p₀, ⟨?_, ?_, ?_⟩, hexpand⟩
  · rw [hcomponents₀, ← hcomponents, List.map_nil, List.append_nil]
  · rw [List.append_nil]
    exact htrail₀
  · rw [weight]
    omega

/-- The parts of an absolute root lead from the root of the disk to one path
    for it. -/
theorem expand_absolute (hroot : d.find? root = some (r, .directory)) {s : List Char}
    (hs : Trimmed root s) (habsolute : root.isAbsolute = true)
    (hsize : Text.byteLength root.text.toList + 1 ≤ 4095) :
    ∃ p₀, Node d root r (Text.byteLength root.text.toList + 1) p₀ [] ∧
      ∀ ls x, x ∈ d.look
          (expand (((Path.parts s).tail.map fun b => Leg.name (String.ofList b)) ++ ls) ⟨"/"⟩) ↔
        x ∈ d.look (expand ls p₀) := by
  obtain ⟨htrail, hdir⟩ := Disk.trail_of_find? hroot
  obtain ⟨b, parts, hparts, hb, hlead⟩ := hs.parts_eq
  have hnil : b = [] := hb.2 habsolute
  subst hnil
  have hnames : Disk.names root.text.toList = parts.filter fun b => !b.isEmpty := by
    rw [hs.additive Disk.names_append_slash rfl, Disk.names, hparts]
    rfl
  have hsolid : Path.solid root.text.toList = parts.filterMap Path.Component.ofPart? := by
    rw [hs.additive Path.solid_append_slash Path.solid_nil, Path.solid, hparts]
    rfl
  have hstart : Trail d ⟨"/"⟩ [] := ⟨by decide, by decide, rfl⟩
  rw [hparts, List.tail_cons]
  refine node_of_parts hroot hs ?_ hstart (by decide) ?_ ?_ ?_ hsize
  · rw [hparts]
    exact List.subset_cons_self _ _
  · rw [← hnames]
    have hfollow := htrail.follow
    rw [Disk.origin, habsolute] at hfollow
    exact hfollow
  · rw [Path.components_eq, hlead, habsolute, hsolid]
    rfl
  · have hspread := spread_parts s
    have hle := hs.byteLength_le
    rw [hparts] at hspread
    rw [spread] at hspread
    rw [show Text.byteLength (⟨"/"⟩ : Path).text.toList = 1 from rfl]
    rw [show Text.byteLength [] = 0 from rfl] at hspread
    omega

/-- The parts of a relative root lead from the current directory to one path for
    it, unless the first one is `.`, which is forgotten on the way. -/
theorem expand_relative (hroot : d.find? root = some (r, .directory))
    (hcurrent : .current ∉ root.components) {s : List Char} (hs : Trimmed root s)
    (hrelative : root.isAbsolute = false)
    (hsize : Text.byteLength root.text.toList + 1 ≤ 4095) :
    ∃ p₀, Node d root r (Text.byteLength root.text.toList + 1) p₀ [] ∧
      ∀ ls x, x ∈ d.look
          (expand (((Path.parts s).map fun b => Leg.name (String.ofList b)) ++ ls) ⟨"."⟩) ↔
        x ∈ d.look (expand ls p₀) := by
  obtain ⟨htrail, hdir⟩ := Disk.trail_of_find? hroot
  obtain ⟨b, parts, hparts, hb, hlead⟩ := hs.parts_eq
  rw [hrelative] at hb hlead
  have hne : b ≠ [] := fun e => Bool.false_ne_true (hb.1 e)
  have hdot : b ≠ ['.'] := by
    intro e
    rw [Path.components_eq, hlead, if_neg Bool.false_ne_true, if_pos e] at hcurrent
    exact hcurrent List.mem_cons_self
  have hmem : b ∈ Path.parts s := by
    rw [hparts]
    exact List.mem_cons_self
  have hslash : '/' ∉ b := Path.not_mem_of_mem_parts hmem
  have hnul : '\x00' ∉ b := fun h => htrail.no_nul (hs.mem (Path.mem_of_mem_parts hmem h))
  have hempty : b.isEmpty = false := by simpa using hne
  -- the names of the root are the first part and those of the others
  have hfollow := htrail.follow
  rw [Disk.origin, hrelative, hs.additive Disk.names_append_slash rfl, Disk.names, hparts,
    List.filter_cons, hempty] at hfollow
  obtain ⟨q, hq, hrest⟩ : ∃ q, d.follow d.here [b] = .ok q ∧
      d.follow q (parts.filter fun b => !b.isEmpty) = .ok r := by
    rw [← bind_eq_ok_iff, ← Disk.follow_append]
    exact hfollow
  have hfirst := trail_of_part hne hslash hnul hq
  have hcomponents := components_of_part hslash hdot
  have hsolid : root.components = (⟨String.ofList b⟩ : Path).components ++
      parts.filterMap Path.Component.ofPart? := by
    rw [Path.components_eq, hlead, if_neg Bool.false_ne_true, if_neg hdot,
      hs.additive Path.solid_append_slash Path.solid_nil, Path.solid, hparts, hcomponents,
      List.nil_append, ← List.filterMap_append]
    rfl
  have hcurrent' : .current ∉ (⟨String.ofList b⟩ : Path).components := by
    rw [hcomponents]
    exact current_not_mem_filterMap [b]
  have hspread := spread_parts s
  have hle := hs.byteLength_le
  rw [hparts, spread] at hspread
  obtain ⟨p₀, hnode, hexpand⟩ := node_of_parts hroot hs (hparts ▸ List.subset_cons_self b parts)
    hfirst hcurrent' hrest hsolid (by rw [String.toList_ofList]; omega) hsize
  refine ⟨p₀, hnode, fun ls x => ?_⟩
  have hfound : d.find? ⟨String.ofList b⟩ = some (q, .directory) :=
    hfirst.find? (by rw [String.toList_ofList]; omega) (directory_of_follow hrest hdir) (.inr rfl)
  rw [hparts, List.map_cons, List.cons_append, expand_of_next (next_here hfound hq)]
  exact hexpand ls x

end Root

/-! ## The legs of an entry -/

section Entry

variable {t : List Char} {ws : List Wildcard}

theorem parse_of_mem_ofParts (h : ofParts t = .ok ws) {w : Wildcard} (hw : w ∈ ws) :
    ∃ b ∈ Path.parts t, parse b = .ok w := by
  obtain ⟨b, hb, hparse⟩ := (mem_of_mapM h).1 hw
  refine ⟨b, ?_, hparse⟩
  split at hb
  · exact List.dropLast_subset _ hb
  · exact hb

/-- The legs of an entry without `..` do not leave their directories, unless a
    wildcard for hidden files does. -/
theorem tame_of_ofParts (h : ofParts t = .ok ws) (hparent : ['.', '.'] ∉ Path.parts t)
    (hdots : ∀ w ∈ ws, w.literal? = none → (Leg.search w).Tame) : ∀ l ∈ legs ws, l.Tame := by
  intro l hl
  rcases mem_legs hl with ⟨w, hw, rfl⟩ | ⟨v?, rfl⟩
  · unfold Leg.ofWildcard
    split
    · next s hs =>
      obtain ⟨b, hb, hparse⟩ := parse_of_mem_ofParts h hw
      rw [literal_of_parse hparse hs, Leg.Tame, String.toList_ofList]
      refine ⟨Path.not_mem_of_mem_parts hb, fun e => hparent ?_⟩
      have hdots : b = ['.', '.'] := by simpa using congrArg String.toList e
      rw [← hdots]
      exact hb
    · next hs =>
      split
      · exact trivial
      · exact hdots w hw hs
  · exact trivial

theorem cost_ofWildcard_le {b : List Char} {w : Wildcard} (h : parse b = .ok w) :
    (Leg.ofWildcard w).cost ≤ Text.byteLength b + 1 := by
  unfold Leg.ofWildcard
  split
  · next s hs =>
    rw [literal_of_parse h hs, Leg.cost, String.toList_ofList]
    split
    · exact Nat.le_refl _
    · exact Nat.zero_le _
  · split
    · exact Nat.zero_le _
    · exact Nat.zero_le _

theorem cost_legs_le (ws : List Wildcard) :
    cost (legs ws) ≤ cost (ws.map Leg.ofWildcard) := by
  fun_induction legs ws with
  | case1 => exact Nat.le_refl _
  | case2 w => simp [cost]
  | case3 w v ws _ ih =>
    rw [List.map_cons, cost, cost]
    omega
  | case4 w v ws _ _ ih =>
    rw [List.map_cons, cost]
    omega
  | case5 w v ws _ _ ih =>
    rw [List.map_cons, List.map_cons, cost, cost, cost, show (Leg.deep (some v)).cost = 0 from rfl]
    omega

/-- The spelling of an entry bounds what it adds to a path without going
    anywhere. -/
theorem cost_le_of_ofParts (h : ofParts t = .ok ws) :
    cost (legs ws) ≤ Text.byteLength t + 1 := by
  have hsum : ∀ {bs : List (List Char)} {ws : List Wildcard}, bs.mapM parse = .ok ws →
      cost (ws.map Leg.ofWildcard) ≤ spread bs := by
    intro bs
    induction bs with
    | nil =>
      intro ws h
      cases h
      exact Nat.le_refl _
    | cons b bs ih =>
      intro ws h
      rw [List.mapM_cons] at h
      obtain ⟨w, hw, h⟩ := bind_eq_ok_iff.1 h
      obtain ⟨ws', hws, h⟩ := bind_eq_ok_iff.1 h
      cases h
      have hfirst := cost_ofWildcard_le hw
      have hrest := ih hws
      rw [List.map_cons, cost, spread]
      omega
  have hkept : spread (if (Path.parts t).getLast? = some [] then (Path.parts t).dropLast
      else Path.parts t) ≤ spread (Path.parts t) := by
    split
    · next hlast =>
      obtain ⟨bs, hbs⟩ := List.getLast?_eq_some_iff.1 hlast
      rw [hbs, List.dropLast_concat, spread_append]
      omega
    · exact Nat.le_refl _
  calc cost (legs ws)
      ≤ cost (ws.map Leg.ofWildcard) := cost_legs_le ws
    _ ≤ _ := hsum h
    _ ≤ spread (Path.parts t) := hkept
    _ = Text.byteLength t + 1 := spread_parts t

end Entry

/-! ## Directories -/

/-- The names of a directory that an entry describes. -/
def Describes (entry : String) (ms : List String) : Prop :=
  ∃ ws, ofParts entry.toList = .ok ws ∧ Leads (legs ws) ms

/-- A path that is spelled like a root with some names behind it, and leads to
    something there. -/
structure Stands (d : Disk) (root : Path) (r : Place) (ms : List String) (c : Disk.Content)
    (p : Path) : Prop where
  components : p.components = root.components ++ ms.map .normal
  found : d.find? p = some (r ++ ms, c)

/-- A wildcard that is searched for below a root and nowhere else. -/
structure Searchable (d : Disk) (root : Path) (r : Place) (entry : String) : Prop where
  valid : ∃ w, parse entry.toList = .ok w
  /-- The root is no wildcard itself. -/
  plain : ∀ c ∈ root.text.toList, isPlain c = true
  /-- The root does not start with `.`, which the paths that are found do not
      have. -/
  bare : .current ∉ root.components
  /-- No placeholder stands for the rest of `.` or `..`. -/
  tame : ∀ ws, ofParts entry.toList = .ok ws → ∀ w ∈ ws, w.literal? = none → (Leg.search w).Tame
  /-- No path is too long to be looked up. -/
  short : ∀ f ∈ ([], FileKind.directory) :: d.below r, f.2 = .directory →
    Text.byteLength root.text.toList + Text.byteLength entry.toList + weight f.1 + 2 ≤ 4095

section Directories

variable {d : Disk} {p root : Path} {r : Place} {entry : String}

theorem Searchable.fits (h : Searchable d root r entry) {ms : List String}
    (hdir : d.content? (r ++ ms) = some .directory) :
    Text.byteLength root.text.toList + Text.byteLength entry.toList + weight ms + 2 ≤ 4095 := by
  refine h.short (ms, .directory) ?_ rfl
  by_cases hms : ms = []
  · rw [hms]
    exact List.mem_cons_self
  · exact List.mem_cons_of_mem _ (Disk.mem_below.2 ⟨hms, _, hdir, rfl⟩)

theorem mem_look_directories {start : Path} {rest : List Char}
    (h : (if p.isAbsolute then (⟨"/"⟩, p.text.toList.drop 1) else (⟨"."⟩, p.text.toList)) =
      (start, rest)) {x : Path} :
    x ∈ d.look (directories p) ↔ ∃ w ws, parse p.text.toList = .ok w ∧ ofParts rest = .ok ws ∧
      x ∈ d.look (expand (legs ws) start) ∧ ∃ q, d.find? x = some (q, .directory) := by
  unfold directories
  dsimp only
  rw [h]
  dsimp only
  split
  · next w ws hw hws =>
    rw [Disk.look_bind d (.expand _ _), Disk.look_filterM d .isDirectory, List.mem_filter,
      Disk.look_isDirectory]
    constructor
    · intro hx
      exact ⟨w, ws, hw, hws, hx⟩
    · rintro ⟨w', ws', -, hws', hx⟩
      rw [hws] at hws'
      cases hws'
      exact hx
  · next hfault =>
    constructor
    · intro hx
      cases hx
    · rintro ⟨w, ws, hw, hws, -⟩
      exact absurd hws (hfault w ws hw)

/-- A root with an entry behind it is spelled with one slash in between. -/
theorem exists_trimmed (hroot : root.text ≠ "") {e : Path} (he : e.isAbsolute = false) :
    ∃ s, Trimmed root s ∧ (root.join e).text.toList = s ++ '/' :: e.text.toList := by
  rcases Path.text_join he hroot with ⟨s, hs, htext⟩ | htext
  · exact ⟨s, ⟨hroot, .inr hs⟩, htext⟩
  · exact ⟨root.text.toList, ⟨hroot, .inl rfl⟩, htext⟩

/-- A wildcard below a root can be read, since the root is plain. -/
theorem Searchable.parse_join (h : Searchable d root r entry) {s : List Char}
    (hs : Trimmed root s) : ∃ w, parse (s ++ '/' :: entry.toList) = .ok w := by
  obtain ⟨w, hw⟩ := h.valid
  rw [List.append_cons]
  refine parse_below ?_ (by simp) hw
  intro c hc
  rcases List.mem_append.1 hc with hc | hc
  · exact h.plain c (hs.mem hc)
  · rw [List.mem_singleton.1 hc]
    decide

/-- If the first parts of a wildcard lead to one path, the others decide. -/
theorem mem_directories_of_expand {start p₀ : Path} {roots : List (List Char)} {rest t : List Char}
    (hread : ∃ w, parse p.text.toList = .ok w)
    (hstart : (if p.isAbsolute then (⟨"/"⟩, p.text.toList.drop 1) else (⟨"."⟩, p.text.toList)) =
      (start, rest))
    (hroots : ∀ b ∈ roots, ∀ c ∈ b, isPlain c = true)
    (hrest : Path.parts rest = roots ++ Path.parts t)
    (hexpand : ∀ ls x,
      x ∈ d.look (expand ((roots.map fun b => Leg.name (String.ofList b)) ++ ls) start) ↔
        x ∈ d.look (expand ls p₀)) (x : Path) :
    x ∈ d.look (directories p) ↔ ∃ ws, ofParts t = .ok ws ∧ x ∈ d.look (expand (legs ws) p₀) ∧
      ∃ q, d.find? x = some (q, .directory) := by
  rw [mem_look_directories hstart, ofParts_below hroots hrest]
  constructor
  · rintro ⟨w, ws, -, hws, hx, hq⟩
    obtain ⟨ws', hws', rfl⟩ := map_eq_ok_iff.1 hws
    rw [legs_below, hexpand] at hx
    exact ⟨ws', hws', hx, hq⟩
  · rintro ⟨ws, hws, hx, hq⟩
    obtain ⟨w, hw⟩ := hread
    refine ⟨w, _, hw, map_eq_ok_iff.2 ⟨ws, hws, rfl⟩, ?_, hq⟩
    rw [legs_below, hexpand]
    exact hx

/-- A wildcard below a root is followed from one path for the root. -/
theorem expand_root (hroot : d.find? root = some (r, .directory)) (h : Searchable d root r entry)
    (he : (⟨entry⟩ : Path).isAbsolute = false) :
    ∃ p₀, Node d root r (Text.byteLength root.text.toList + 1) p₀ [] ∧
      ∀ x, x ∈ d.look (directories (root.join ⟨entry⟩)) ↔
        ∃ ws, ofParts entry.toList = .ok ws ∧ x ∈ d.look (expand (legs ws) p₀) ∧
          ∃ q, d.find? x = some (q, .directory) := by
  obtain ⟨htrail, hdir⟩ := Disk.trail_of_find? hroot
  obtain ⟨s, hs, htext⟩ := exists_trimmed htrail.ne_empty he
  have hsize : Text.byteLength root.text.toList + 1 ≤ 4095 := by
    have hnil : d.content? (r ++ []) = some .directory := by rwa [List.append_nil]
    have hfits := h.fits hnil
    omega
  have hplain : ∀ b ∈ Path.parts s, ∀ c ∈ b, isPlain c = true :=
    fun b hb c hc => h.plain c (hs.mem (Path.mem_of_mem_parts hb hc))
  have hread : ∃ w, parse (root.join ⟨entry⟩).text.toList = .ok w := by
    rw [htext]
    exact h.parse_join hs
  have habsolute := Path.isAbsolute_join he htrail.ne_empty
  by_cases hcase : root.isAbsolute = true
  · obtain ⟨p₀, hnode, hexpand⟩ := expand_absolute hroot hs hcase hsize
    rw [hcase] at habsolute
    -- the first part of the root is the empty text before its slash
    obtain ⟨rest, hrest⟩ : ∃ rest, (root.join ⟨entry⟩).text.toList = '/' :: rest :=
      List.head?_eq_some_iff.1 (beq_iff_eq.1 habsolute)
    have hparts : Path.parts rest = (Path.parts s).tail ++ Path.parts entry.toList := by
      have hne : Path.parts s ≠ [] := Text.fields_ne_nil _ s
      have hslash : Path.parts ('/' :: rest) = [] :: Path.parts rest :=
        Path.parts_append_slash [] rest
      rw [← hrest, htext, Path.parts_append_slash] at hslash
      rw [← List.tail_append_of_ne_nil hne, hslash]
      rfl
    refine ⟨p₀, hnode, mem_directories_of_expand hread ?_ ?_ hparts hexpand⟩
    · rw [if_pos habsolute, hrest]
      rfl
    · exact fun b hb => hplain b (List.mem_of_mem_tail hb)
  · have hrelative : root.isAbsolute = false := Bool.eq_false_iff.2 hcase
    obtain ⟨p₀, hnode, hexpand⟩ := expand_relative hroot h.bare hs hrelative hsize
    rw [hrelative] at habsolute
    have hparts : Path.parts (root.join ⟨entry⟩).text.toList =
        Path.parts s ++ Path.parts entry.toList := by
      rw [htext, Path.parts_append_slash]
    refine ⟨p₀, hnode, mem_directories_of_expand hread ?_ hplain hparts hexpand⟩
    rw [habsolute]
    rfl

/-- A wildcard below a root stands for directories that it describes. -/
theorem stands_of_mem_directories (hd : d.Tree) (hroot : d.find? root = some (r, .directory))
    (h : Searchable d root r entry) (he : (⟨entry⟩ : Path).isAbsolute = false)
    (hparent : ['.', '.'] ∉ Path.parts entry.toList) {x : Path}
    (hx : x ∈ d.look (directories (root.join ⟨entry⟩))) :
    ∃ ms, Describes entry ms ∧ Stands d root r ms .directory x := by
  obtain ⟨p₀, hnode, hlooked⟩ := expand_root hroot h he
  obtain ⟨ws, hws, hx, q, hq⟩ := (hlooked x).1 hx
  obtain ⟨ms, hleads, hnode, -⟩ := expand_sound hd h.bare
    (tame_of_ofParts hws hparent (h.tame ws hws)) hnode hx
  rw [List.nil_append] at hnode
  obtain ⟨rfl, -⟩ := hnode.place_eq hq
  exact ⟨ms, ⟨ws, hws, hleads⟩, hnode.components, hq⟩

/-- A wildcard below a root stands for every directory that it describes. -/
theorem exists_mem_directories (hd : d.Tree) (hroot : d.find? root = some (r, .directory))
    (h : Searchable d root r entry) (he : (⟨entry⟩ : Path).isAbsolute = false)
    (hparent : ['.', '.'] ∉ Path.parts entry.toList) {ms : List String}
    (hms : Describes entry ms) (hdir : d.content? (r ++ ms) = some .directory) :
    ∃ x ∈ d.look (directories (root.join ⟨entry⟩)), Stands d root r ms .directory x := by
  obtain ⟨p₀, hnode, hlooked⟩ := expand_root hroot h he
  obtain ⟨ws, hws, hleads⟩ := hms
  have hfits := h.fits hdir
  have hcost := cost_le_of_ofParts hws
  obtain ⟨x, hx, hnode⟩ := expand_complete hd h.bare
    (tame_of_ofParts hws hparent (h.tame ws hws)) hnode hleads (by rwa [List.nil_append])
    (by rw [List.nil_append]; omega)
  rw [List.nil_append] at hnode
  have hfound : d.find? x = some (r ++ ms, .directory) :=
    hnode.trail.find? (by have := hnode.size; omega) hdir (.inr rfl)
  exact ⟨x, (hlooked x).2 ⟨ws, hws, hx, _, hfound⟩, hnode.components, hfound⟩

end Directories

end MessageHarvest.Wildcard
