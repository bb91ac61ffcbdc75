import MessageHarvest.Proofs.Files.Looking
import MessageHarvest.Proofs.Files.Tree
import MessageHarvest.Proofs.Files.Wildcard

/-! # Where wildcards lead

    A wildcard is followed leg by leg from a directory. On a tree the paths that
    this gives are those of the places whose names the legs go through.

    * `Leads`: the names that a way goes through, said without a disk.
    * `Node`: a path that spells some names below a root.
    * `next_sound`, `next_complete`: one leg.
    * `expand_sound`, `expand_complete`: a way, by induction on its legs. -/

namespace MessageHarvest.Wildcard

open Disk (Tree Trail Named weight)

/-! ## Ways without a disk -/

/-- Whether a name stands for the directory that it is looked up in. -/
def stays (n : String) : Prop := n = "" ∨ n = "."

instance (n : String) : Decidable (stays n) := inferInstanceAs (Decidable (_ ∨ _))

/-- The names that a leg can go through. -/
def Leg.Goes : Leg → List String → Prop
  | .name n, ms => ms = if stays n then [] else [n]
  | .search w, ms => ∃ n, ms = [n] ∧ w.matchesName n = true
  | .deep none, ms => ms ≠ []
  | .deep (some v), ms => ∃ n, ms.getLast? = some n ∧ v.matchesName n = true

/-- The names that a way can go through. -/
def Leads : List Leg → List String → Prop
  | [], ns => ns = []
  | l :: ls, ns => ∃ ms ns', ns = ms ++ ns' ∧ l.Goes ms ∧ Leads ls ns'

/-- A leg that does not leave its directory upwards. -/
def Leg.Tame : Leg → Prop
  | .name n => '/' ∉ n.toList ∧ n ≠ ".."
  | .search w => w.startsWithDot = true → w.matchesName "." = false ∧ w.matchesName ".." = false
  | .deep _ => True

instance : (l : Leg) → Decidable l.Tame
  | .name _ => inferInstanceAs (Decidable (_ ∧ _))
  | .search _ => inferInstanceAs (Decidable (_ → _))
  | .deep _ => inferInstanceAs (Decidable True)

/-- A name that is looked up and does not stay can be that of a file. -/
theorem plain_of_tame {n : String} (hn : (Leg.name n).Tame) (hstays : ¬ stays n) :
    Path.Plain n := by
  rw [stays, not_or] at hstays
  refine ⟨?_, ?_, ?_, hn.1⟩
  · exact fun e => hstays.1 (String.toList_injective e)
  · exact fun e => hstays.2 (String.toList_injective e)
  · exact fun e => hn.2 (String.toList_injective e)

theorem not_dots_of_tame {n : String} (hn : (Leg.name n).Tame) (hstays : ¬ stays n) :
    ¬ (n = "." ∨ n = "..") := by
  rintro (e | e)
  · exact hstays (.inr e)
  · exact hn.2 e

/-- A tame wildcard is not tried on `.` and `..`, or does not match them. -/
theorem not_dots_of_search {w : Wildcard} (hw : (Leg.search w).Tame) {dot : String}
    (hdot : dot ∈ ["..", "."]) : ¬ (w.startsWithDot && w.matchesName dot) = true := by
  intro hmatch
  rw [Bool.and_eq_true] at hmatch
  obtain ⟨hcurrent, hparent⟩ := hw hmatch.1
  simp only [List.mem_cons, List.not_mem_nil, or_false] at hdot
  rcases hdot with rfl | rfl
  · rw [hparent] at hmatch
    cases hmatch.2
  · rw [hcurrent] at hmatch
    cases hmatch.2

theorem ne_nil_of_deep {last? : Option Wildcard} {ms : List String}
    (h : (Leg.deep last?).Goes ms) : ms ≠ [] := by
  cases last? with
  | none => exact h
  | some v =>
    obtain ⟨n, hn, -⟩ := h
    rintro rfl
    cases hn

/-- The bytes that a leg adds to a path without going anywhere. -/
def Leg.cost : Leg → Nat
  | .name n => if stays n then Text.byteLength n.toList + 1 else 0
  | .search _ | .deep _ => 0

theorem not_stays_of_cost {n : String} (h : (Leg.name n).cost = 0) : ¬ stays n := by
  intro hstays
  rw [Leg.cost, if_pos hstays] at h
  omega

/-- A leg that adds nothing but names goes somewhere. -/
theorem ne_nil_of_goes {l : Leg} (hcost : l.cost = 0) {ms : List String} (h : l.Goes ms) :
    ms ≠ [] := by
  cases l with
  | name n =>
    rw [Leg.Goes, if_neg (not_stays_of_cost hcost)] at h
    rw [h]
    exact List.cons_ne_nil n []
  | search w =>
    obtain ⟨n, rfl, -⟩ := h
    exact List.cons_ne_nil n []
  | deep last? => exact ne_nil_of_deep h

/-! ## Paths below a root -/

/-- Names are put behind every path but the current directory. -/
theorem inside_eq_child {p : Path} (hp : .current ∉ p.components) (n : String) :
    inside p n = p.child n := by
  have hhere : isHere p = false := by
    rw [isHere, beq_eq_false_iff_ne]
    intro he
    rw [he] at hp
    exact hp (List.mem_singleton.2 rfl)
  rw [inside, hhere]
  rfl

/-- A path that spells some names below a root, with some bytes more than these
    names at most. -/
structure Node (d : Disk) (root : Path) (r : Place) (extra : Nat) (p : Path) (ns : List String) :
    Prop where
  components : p.components = root.components ++ ns.map .normal
  trail : Trail d p (r ++ ns)
  size : Text.byteLength p.text.toList ≤ extra + weight ns

namespace Node

variable {d : Disk} {root p : Path} {r : Place} {extra : Nat} {ns : List String}

theorem inside_eq (h : Node d root r extra p ns) (hroot : .current ∉ root.components) (n : String) :
    inside p n = p.child n := by
  refine inside_eq_child ?_ n
  simp [h.components, hroot]

theorem beneath_eq (h : Node d root r extra p ns) (hroot : .current ∉ root.components)
    (ms : List String) : beneath p ms = p.descend ms := by
  cases ms with
  | nil => rfl
  | cons m ms =>
    rw [beneath, h.inside_eq hroot]
    rfl

theorem descend (h : Node d root r extra p ns) (hd : d.Tree) {ms : List String} {c : Disk.Content}
    (hc : d.content? (r ++ (ns ++ ms)) = some c) :
    Node d root r extra (p.descend ms) (ns ++ ms) := by
  rw [← List.append_assoc] at hc
  have hplain : ∀ m ∈ ms, Path.Plain m :=
    fun m hm => (hd.named_of_content? hc m (List.mem_append_right _ hm)).plain
  refine ⟨?_, ?_, ?_⟩
  · rw [Path.components_descend hplain h.trail.ne_empty, h.components, List.map_append,
      List.append_assoc]
  · rw [← List.append_assoc]
    exact h.trail.descend hd hc
  · have hlength := Disk.byteLength_descend p ms
    have hsize := h.size
    rw [Disk.weight_append]
    omega

/-- A name that stays adds to the spelling only. -/
theorem stay (h : Node d root r extra p ns) {n : String} (hn : stays n)
    (hdir : n = "." → d.content? (r ++ ns) = some .directory) :
    Node d root r (extra + (Text.byteLength n.toList + 1)) (p.child n) ns := by
  have hrelative : (⟨n⟩ : Path).isAbsolute = false := by
    rcases hn with rfl | rfl <;> decide
  have hnul : '\x00' ∉ n.toList := by
    rcases hn with rfl | rfl <;> decide
  have hsolid : Path.solid n.toList = [] := by
    rcases hn with rfl | rfl <;> decide
  have hfollow : d.follow (r ++ ns) (Disk.names n.toList) = .ok (r ++ ns) := by
    rcases hn with rfl | rfl
    · rfl
    · rw [show Disk.names ".".toList = [['.']] by decide, Disk.follow_cons (hdir rfl) (by decide)]
      rfl
  refine ⟨?_, h.trail.join hrelative hnul hfollow, ?_⟩
  · rw [Path.child, Path.components_join hrelative h.trail.ne_empty, hsolid, List.append_nil,
      h.components]
  · have hlength := p.byteLength_child n
    have hsize := h.size
    omega

/-- What is found at such a path. -/
theorem place_eq (h : Node d root r extra p ns) {q : Place} {c : Disk.Content}
    (hfind : d.find? p = some (q, c)) : q = r ++ ns ∧ d.content? (r ++ ns) = some c := by
  obtain ⟨htrail, hc⟩ := Disk.trail_of_find? hfind
  have hq : q = r ++ ns := by
    have hfollow := htrail.follow
    rw [h.trail.follow] at hfollow
    cases hfollow
    rfl
  rw [← hq]
  exact ⟨rfl, hc⟩

end Node

/-! ## One leg -/

section Next

variable {d : Disk} {root p : Path} {r : Place} {extra : Nat} {ns : List String} {l : Leg}

theorem mem_look_name {p' : Path} {n : String} :
    p' ∈ d.look (Leg.next p (.name n)) ↔ p' = inside p n ∧
      if n = "." ∨ n = ".." then ∃ q, d.find? p = some (q, .directory)
      else (d.find? (inside p n)).isSome = true := by
  have hlast : ∀ reachable : Bool,
      p' ∈ (if reachable then [inside p n] else []) ↔ p' = inside p n ∧ reachable = true := by
    intro reachable
    cases reachable <;> simp
  rw [Leg.next]
  by_cases hdots : n = "." ∨ n = ".."
  · have hbool : (n = "." || n = "..") = true := by simpa using hdots
    rw [if_pos hdots, if_pos hbool, Disk.look_bind d (.isDirectory p), Disk.look_pure, hlast,
      Disk.look_isDirectory]
  · have hbool : ¬ (n = "." || n = "..") = true := by simpa using hdots
    rw [if_neg hdots, if_neg hbool, Disk.look_bind d (.isThere _), Disk.look_pure, hlast,
      Disk.look_isThere]

/-- What is only looked for in directories. -/
theorem mem_look_inDirectory {x : StateM Disk (List Path)} {p' : Path} :
    p' ∈ d.look (FileSystem.isDirectory p >>= fun there => if !there then pure [] else x) ↔
      ∃ q, d.find? p = some (q, .directory) ∧ p' ∈ d.look x := by
  rw [Disk.look_bind d (.isDirectory p)]
  by_cases hdir : d.look (FileSystem.isDirectory p) = true
  · obtain ⟨q, hq⟩ := (Disk.look_isDirectory d p).1 hdir
    rw [hdir]
    simp [hq]
  · have hnone : ∀ q, d.find? p ≠ some (q, .directory) :=
      fun q hq => hdir ((Disk.look_isDirectory d p).2 ⟨q, hq⟩)
    rw [Bool.eq_false_iff.2 hdir]
    simp [hnone]

/-- Directories do not list `.` and `..`, but a wildcard that starts with a dot
    can reach them. -/
theorem mem_look_search {p' : Path} {w : Wildcard} :
    p' ∈ d.look (Leg.next p (.search w)) ↔ ∃ q, d.find? p = some (q, .directory) ∧
      ((∃ dot ∈ ["..", "."], (w.startsWithDot && w.matchesName dot) = true ∧ p.child dot = p') ∨
        ∃ n c, d.content? (q ++ [n]) = some c ∧ w.matchesName n = true ∧ inside p n = p') := by
  rw [Leg.next, mem_look_inDirectory]
  refine exists_congr fun q => and_congr_right fun hq => ?_
  rw [Disk.look_bind d (.children p), Disk.look_children d hq, Disk.look_pure, List.mem_append]
  refine or_congr ?_ ?_
  · rw [List.mem_map]
    refine exists_congr fun dot => ?_
    rw [List.mem_filter, and_assoc]
  · rw [List.mem_map]
    refine exists_congr fun n => ?_
    have hlisted : n ∈ (d.childrenAt q).map Prod.fst ↔ ∃ c, d.content? (q ++ [n]) = some c := by
      simp [Disk.mem_childrenAt]
    rw [List.mem_filter, hlisted, and_assoc, exists_and_right]

theorem mem_look_deep {p' : Path} {last? : Option Wildcard} :
    p' ∈ d.look (Leg.next p (.deep last?)) ↔ ∃ q, d.find? p = some (q, .directory) ∧
      ∃ ms c, d.content? (q ++ ms) = some c ∧ (Leg.deep last?).Goes ms ∧
        (last? = none → c = .directory) ∧ beneath p ms = p' := by
  rw [Leg.next, mem_look_inDirectory]
  refine exists_congr fun q => and_congr_right fun hq => ?_
  rw [Disk.look_bind d (.walk p), Disk.look_walk d hq, Disk.look_pure, List.mem_map]
  have hplaces : ∀ ms k, (ms, k) ∈ (([], FileKind.directory) :: d.below q).filter
      (fun f => !f.1.isEmpty) ↔ ms ≠ [] ∧ ∃ c, d.content? (q ++ ms) = some c ∧ k = c.kind := by
    intro ms k
    rw [List.mem_filter, List.mem_cons, Disk.mem_below]
    cases ms with
    | nil => simp
    | cons m ms => simp
  have hmatch : ∀ (v : Wildcard) (ms : List String),
      (ms.getLast?.map v.matchesName).getD false = true ↔ (Leg.deep (some v)).Goes ms := by
    intro v ms
    cases hlast : ms.getLast? <;> simp [Leg.Goes, hlast]
  constructor
  · rintro ⟨⟨ms, k⟩, hhit, hp⟩
    obtain ⟨hplace, hlast⟩ := List.mem_filter.1 hhit
    obtain ⟨hne, c, hc, rfl⟩ := (hplaces ms k).1 hplace
    refine ⟨ms, c, hc, ?_, ?_, hp⟩
    · cases last? with
      | none => exact hne
      | some v => exact (hmatch v ms).1 hlast
    · rintro rfl
      cases c with
      | directory => rfl
      | file bytes => simp [Disk.Content.kind] at hlast
  · rintro ⟨ms, c, hc, hgoes, hdir, hp⟩
    have hne := ne_nil_of_deep hgoes
    refine ⟨(ms, c.kind), List.mem_filter.2 ⟨(hplaces ms c.kind).2 ⟨hne, c, hc, rfl⟩, ?_⟩, hp⟩
    cases last? with
    | none => simp [hdir rfl, Disk.Content.kind]
    | some v => exact (hmatch v ms).2 hgoes

/-- A leg goes to a place that exists, and puts its names behind the path if it
    goes anywhere. -/
theorem next_sound (hd : d.Tree) (hroot : .current ∉ root.components) (hl : l.Tame)
    (h : Node d root r extra p ns) {p' : Path} (hp : p' ∈ d.look (l.next p)) :
    ∃ ms c, l.Goes ms ∧ d.content? (r ++ (ns ++ ms)) = some c ∧
      Node d root r (extra + l.cost) p' (ns ++ ms) ∧ (l.cost = 0 → p' = p.descend ms) := by
  -- a place below is spelled by its names
  have hdescend : ∀ {ms c}, d.content? (r ++ ns ++ ms) = some c →
      d.content? (r ++ (ns ++ ms)) = some c ∧
        Node d root r (extra + 0) (p.descend ms) (ns ++ ms) := by
    intro ms c hc
    rw [List.append_assoc] at hc
    exact ⟨hc, h.descend hd hc⟩
  cases l with
  | name n =>
    obtain ⟨rfl, hthere⟩ := mem_look_name.1 hp
    rw [h.inside_eq hroot] at hthere ⊢
    by_cases hstays : stays n
    · have hgoes : (Leg.name n).Goes [] := by rw [Leg.Goes, if_pos hstays]
      have hcost : (Leg.name n).cost = Text.byteLength n.toList + 1 := by
        rw [Leg.cost, if_pos hstays]
      obtain ⟨c, hc, hdir⟩ : ∃ c, d.content? (r ++ ns) = some c ∧
          (n = "." → d.content? (r ++ ns) = some .directory) := by
        by_cases hdot : n = "."
        · rw [if_pos (.inl hdot)] at hthere
          obtain ⟨q, hq⟩ := hthere
          obtain ⟨-, hc⟩ := h.place_eq hq
          exact ⟨.directory, hc, fun _ => hc⟩
        · have hempty : n = "" := hstays.resolve_right hdot
          subst hempty
          rw [if_neg (by decide)] at hthere
          obtain ⟨⟨q, c⟩, hq⟩ := Option.isSome_iff_exists.1 hthere
          obtain ⟨htrail, hc⟩ := Disk.trail_of_find? hq
          have hfollow := h.trail.of_join (e := ⟨""⟩) (by decide) htrail
          cases hfollow
          exact ⟨c, hc, fun hdot' => absurd hdot' hdot⟩
      refine ⟨[], c, hgoes, ?_, ?_, ?_⟩
      · rw [List.append_nil]
        exact hc
      · rw [List.append_nil, hcost]
        exact h.stay hstays hdir
      · rw [hcost]
        exact fun hzero => absurd hzero (Nat.succ_ne_zero _)
    · have hgoes : (Leg.name n).Goes [n] := by rw [Leg.Goes, if_neg hstays]
      have hcost : (Leg.name n).cost = 0 := by rw [Leg.cost, if_neg hstays]
      have hplain := plain_of_tame hl hstays
      rw [if_neg (not_dots_of_tame hl hstays)] at hthere
      obtain ⟨⟨q, c⟩, hq⟩ := Option.isSome_iff_exists.1 hthere
      obtain ⟨-, -, hc⟩ := h.trail.content?_of_find?_child hplain hq
      obtain ⟨hc, hnode⟩ := hdescend hc
      rw [hcost]
      exact ⟨[n], c, hgoes, hc, hnode, fun _ => rfl⟩
  | search w =>
    obtain ⟨q, hq, hdots | ⟨n, c, hc, hn, rfl⟩⟩ := mem_look_search.1 hp
    · obtain ⟨dot, hdot, hmatch, -⟩ := hdots
      exact absurd hmatch (not_dots_of_search hl hdot)
    · obtain ⟨rfl, -⟩ := h.place_eq hq
      obtain ⟨hc, hnode⟩ := hdescend hc
      rw [h.inside_eq hroot]
      exact ⟨[n], c, ⟨n, rfl, hn⟩, hc, hnode, fun _ => rfl⟩
  | deep last? =>
    obtain ⟨q, hq, ms, c, hc, hgoes, -, rfl⟩ := mem_look_deep.1 hp
    obtain ⟨rfl, -⟩ := h.place_eq hq
    obtain ⟨hc, hnode⟩ := hdescend hc
    rw [h.beneath_eq hroot]
    exact ⟨ms, c, hgoes, hc, hnode, fun _ => rfl⟩

/-- Every directory that a leg can go to is found, if its path is not too long. -/
theorem next_complete (hd : d.Tree) (hroot : .current ∉ root.components) (hl : l.Tame)
    (h : Node d root r extra p ns) {ms : List String} (hgoes : l.Goes ms)
    (hdir : d.content? (r ++ (ns ++ ms)) = some .directory)
    (hsize : extra + l.cost + weight (ns ++ ms) ≤ 4095) :
    ∃ p' ∈ d.look (l.next p), Node d root r (extra + l.cost) p' (ns ++ ms) := by
  have hweight := Disk.weight_append ns ms
  have hassoc : d.content? (r ++ ns ++ ms) = some .directory := by
    rw [List.append_assoc]
    exact hdir
  have hhere : d.content? (r ++ ns) = some .directory := hd.directory_of_append hassoc
  have hp : d.find? p = some (r ++ ns, .directory) :=
    h.trail.find? (by have := h.size; omega) hhere (.inr rfl)
  have hbelow := h.descend hd hdir
  cases l with
  | name n =>
    by_cases hstays : stays n
    · have hcost : (Leg.name n).cost = Text.byteLength n.toList + 1 := by
        rw [Leg.cost, if_pos hstays]
      rw [Leg.Goes, if_pos hstays] at hgoes
      subst hgoes
      have hnode := h.stay hstays fun _ => hhere
      have hfound : d.find? (p.child n) = some (r ++ ns, .directory) :=
        hnode.trail.find? (by have := hnode.size; omega) hhere (.inr rfl)
      rw [List.append_nil, hcost]
      refine ⟨p.child n, mem_look_name.2 ⟨(h.inside_eq hroot n).symm, ?_⟩, hnode⟩
      split
      · exact ⟨_, hp⟩
      · rw [h.inside_eq hroot, hfound]
        rfl
    · have hcost : (Leg.name n).cost = 0 := by rw [Leg.cost, if_neg hstays]
      rw [Leg.Goes, if_neg hstays] at hgoes
      subst hgoes
      have hfound : d.find? (p.child n) = some (r ++ (ns ++ [n]), .directory) :=
        hbelow.trail.find? (by have := hbelow.size; omega) hdir (.inr rfl)
      rw [hcost]
      refine ⟨p.child n, mem_look_name.2 ⟨(h.inside_eq hroot n).symm, ?_⟩, hbelow⟩
      rw [if_neg (not_dots_of_tame hl hstays), h.inside_eq hroot, hfound]
      rfl
  | search w =>
    obtain ⟨n, rfl, hn⟩ := hgoes
    refine ⟨p.child n, mem_look_search.2 ⟨_, hp, .inr ⟨n, _, hassoc, hn, ?_⟩⟩, hbelow⟩
    exact h.inside_eq hroot n
  | deep last? =>
    refine ⟨p.descend ms, mem_look_deep.2 ⟨_, hp, ms, _, hassoc, hgoes, fun _ => rfl, ?_⟩, hbelow⟩
    exact h.beneath_eq hroot ms

end Next

/-! ## Whole ways -/

section Expand

variable {d : Disk} {root p : Path} {r : Place} {extra : Nat} {ns : List String} {ls : List Leg}

theorem look_expand_cons (l : Leg) (ls : List Leg) (p : Path) :
    d.look (expand (l :: ls) p) = (d.look (l.next p)).flatMap fun p' => d.look (expand ls p') := by
  rw [expand, Disk.look_bind d (.next p l), Disk.look_bind d (.mapM (.expand ls) _),
    Disk.look_mapM d (.expand ls), Disk.look_pure, List.flatMap_def]

/-- The bytes that the legs of a way add to a path without going anywhere. -/
def cost : List Leg → Nat
  | [] => 0
  | l :: ls => l.cost + cost ls

/-- A way goes to places that exist, and puts its names behind the path if no
    leg of it stays. -/
theorem expand_sound (hd : d.Tree) (hroot : .current ∉ root.components) (hls : ∀ l ∈ ls, l.Tame)
    (h : Node d root r extra p ns) {p' : Path} (hp : p' ∈ d.look (expand ls p)) :
    ∃ ms, Leads ls ms ∧ Node d root r (extra + cost ls) p' (ns ++ ms) ∧
      (cost ls = 0 → p' = p.descend ms) := by
  induction ls generalizing extra p ns with
  | nil =>
    have hp' : p' = p := List.mem_singleton.1 hp
    subst hp'
    refine ⟨[], rfl, ?_, fun _ => rfl⟩
    rw [List.append_nil]
    exact h
  | cons l ls ih =>
    rw [look_expand_cons, List.mem_flatMap] at hp
    obtain ⟨p₁, hnext, hrest⟩ := hp
    obtain ⟨ms, c, hgoes, -, hnode, hfirst⟩ :=
      next_sound hd hroot (hls l List.mem_cons_self) h hnext
    obtain ⟨ms', hleads, hnode', hothers⟩ :=
      ih (fun l' hl' => hls l' (List.mem_cons_of_mem l hl')) hnode hrest
    refine ⟨ms ++ ms', ⟨ms, ms', rfl, hgoes, hleads⟩, ?_, fun hzero => ?_⟩
    · have hcost : extra + cost (l :: ls) = extra + l.cost + cost ls := by
        rw [cost, Nat.add_assoc]
      rw [hcost, ← List.append_assoc]
      exact hnode'
    · rw [cost, Nat.add_eq_zero_iff] at hzero
      rw [hothers hzero.2, hfirst hzero.1, Path.descend, Path.descend, Path.descend,
        List.foldl_append]

/-- Every directory that a way can go to is found, if its path is not too long. -/
theorem expand_complete (hd : d.Tree) (hroot : .current ∉ root.components) (hls : ∀ l ∈ ls, l.Tame)
    (h : Node d root r extra p ns) {ms : List String} (hleads : Leads ls ms)
    (hdir : d.content? (r ++ (ns ++ ms)) = some .directory)
    (hsize : extra + cost ls + weight (ns ++ ms) ≤ 4095) :
    ∃ p' ∈ d.look (expand ls p), Node d root r (extra + cost ls) p' (ns ++ ms) := by
  induction ls generalizing extra p ns ms with
  | nil =>
    have hms : ms = [] := hleads
    subst hms
    rw [List.append_nil]
    exact ⟨p, List.mem_singleton.2 rfl, h⟩
  | cons l ls ih =>
    obtain ⟨ms, ms', rfl, hgoes, hrest⟩ := hleads
    have hcost : extra + cost (l :: ls) = extra + l.cost + cost ls := by
      rw [cost, Nat.add_assoc]
    have hassoc : ns ++ (ms ++ ms') = ns ++ ms ++ ms' := (List.append_assoc ns ms ms').symm
    rw [hassoc] at hdir
    rw [hassoc, hcost] at hsize
    rw [hassoc, hcost]
    have hweight := Disk.weight_append (ns ++ ms) ms'
    -- the places on the way are directories as well
    have hbelow : d.content? (r ++ (ns ++ ms) ++ ms') = some .directory := by
      rw [List.append_assoc r]
      exact hdir
    have hdir' := hd.directory_of_append hbelow
    obtain ⟨p₁, hnext, hnode⟩ := next_complete hd hroot (hls l List.mem_cons_self) h hgoes hdir'
      (by omega)
    obtain ⟨p', hp', hnode'⟩ := ih (fun l' hl' => hls l' (List.mem_cons_of_mem l hl')) hnode hrest
      hdir hsize
    refine ⟨p', ?_, hnode'⟩
    rw [look_expand_cons, List.mem_flatMap]
    exact ⟨p₁, hnext, hp'⟩

end Expand

end MessageHarvest.Wildcard
