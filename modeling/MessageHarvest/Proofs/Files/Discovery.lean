import MessageHarvest.Proofs.Files.Rooted
import MessageHarvest.Proofs.Sorted

/-! # Which source files are found

    A file is selected by the names that lead to it from the root, whatever the
    root is called: some entry includes a place above it, no entry ignores it,
    and its name is that of a source file (`Selected`). Discovery finds the
    selected files, each once, as long as every path that it compares is spelled
    by these names behind one and the same beginning (`Spelled`).

    * `starts_spec`: the places that the entries name, or one that is missing.
    * `stands_of_begins`, `exists_begins`: these places in terms of names.
    * `covers_iff`: what is ignored in terms of names.
    * `finds_gather`, `Finds.exact`: the files below places that spell them.
    * `discover_exact`: the files that are found, and when discovery fails.

    Wildcards among the included entries lose the beginning `.` of a root, so
    they have to be `Searchable`. -/

namespace MessageHarvest

open Wildcard (Stands Searchable Describes)

namespace Path.Component

instance : Std.LawfulEqOrd Component where
  eq_of_compare {a b} h := by
    obtain ⟨hrank, hname⟩ := compareLex_eq_eq.1 h
    have hrank : a.rank = b.rank := Std.LawfulEqCmp.eq_of_compare hrank
    have hname : a.name = b.name := Std.LawfulEqCmp.eq_of_compare hname
    cases a <;> cases b <;> simp_all [rank, name]

end Path.Component

/-! ## Entries -/

/-- An entry of a configuration that leads down from a root. -/
structure Entry (e : String) : Prop where
  relative : (⟨e⟩ : Path).isAbsolute = false
  downward : .parent ∉ (⟨e⟩ : Path).components

instance (e : String) : Decidable (Entry e) :=
  decidable_of_iff ((⟨e⟩ : Path).isAbsolute = false ∧ .parent ∉ (⟨e⟩ : Path).components)
    ⟨fun ⟨h, h'⟩ => ⟨h, h'⟩, fun h => ⟨h.1, h.2⟩⟩

namespace Entry

/-- The names that lead from a root to an entry. -/
def inner (e : String) : List String :=
  ((Disk.names e.toList).filter (· ≠ ['.'])).map String.ofList

variable {e : String} {d : Disk} {root : Path} {r q : Place}

theorem parent_not_mem_parts (h : Entry e) : ['.', '.'] ∉ Path.parts e.toList := by
  intro hmem
  apply h.downward
  rw [Path.components_eq, Path.solid]
  exact List.mem_append_right _ (List.mem_filterMap.2 ⟨_, hmem, rfl⟩)

theorem parent_not_mem_names (h : Entry e) : ['.', '.'] ∉ Disk.names e.toList :=
  fun hmem => h.parent_not_mem_parts (List.mem_of_mem_filter hmem)

theorem solid_eq (h : Entry e) : Path.solid e.toList = (inner e).map .normal := by
  have hnames : ∀ {ns : List (List Char)}, [] ∉ ns → ['.', '.'] ∉ ns →
      ns.filterMap Path.Component.ofPart? =
        ((ns.filter (· ≠ ['.'])).map String.ofList).map .normal := by
    intro ns
    induction ns with
    | nil =>
      intro _ _
      rfl
    | cons n ns ih =>
      intro hempty hparent
      rw [List.mem_cons, not_or] at hempty hparent
      have hrest := ih hempty.2 hparent.2
      by_cases hdot : n = ['.']
      · simp [hdot, Path.Component.ofPart?, hrest]
      · rw [List.filterMap_cons, Path.ofPart?_eq_some_normal (Ne.symm hempty.1) hdot
          (Ne.symm hparent.1)]
        simp [hdot, hrest]
  rw [Path.solid_eq_filterMap_names]
  refine hnames ?_ h.parent_not_mem_names
  intro hmem
  simpa using (List.mem_filter.1 hmem).2

theorem components_join (h : Entry e) (hroot : root.text ≠ "") :
    (root.join ⟨e⟩).components = root.components ++ (inner e).map .normal := by
  rw [Path.components_join h.relative hroot, h.solid_eq]

/-- An entry leads straight down. -/
theorem follow_eq (h : Entry e) (hfollow : d.follow r (Disk.names e.toList) = .ok q) :
    q = r ++ inner e := by
  have hnames : ∀ {ns : List (List Char)} {r : Place}, ['.', '.'] ∉ ns → d.follow r ns = .ok q →
      q = r ++ (ns.filter (· ≠ ['.'])).map String.ofList := by
    intro ns
    induction ns with
    | nil =>
      intro r _ hfollow
      cases hfollow
      simp
    | cons n ns ih =>
      intro r hparent hfollow
      rw [List.mem_cons, not_or] at hparent
      obtain ⟨-, -, hrest⟩ := Disk.follow_cons_eq_ok hfollow
      rw [ih hparent.2 hrest, Disk.step]
      by_cases hdot : n = ['.']
      · simp [hdot]
      · rw [if_neg hdot, if_neg (Ne.symm hparent.1)]
        simp [hdot]
  exact hnames h.parent_not_mem_names hfollow

/-- What is found at an entry below a root. -/
theorem stands_join (h : Entry e) (hroot : d.find? root = some (r, .directory))
    {c : Disk.Content} (hfound : d.find? (root.join ⟨e⟩) = some (q, c)) :
    Stands d root r (inner e) c (root.join ⟨e⟩) := by
  obtain ⟨htrail, -⟩ := Disk.trail_of_find? hroot
  obtain ⟨htrail', -⟩ := Disk.trail_of_find? hfound
  have hq := h.follow_eq (htrail.of_join h.relative htrail')
  refine ⟨h.components_join htrail.ne_empty, ?_⟩
  rw [← hq]
  exact hfound

end Entry

/-! ## Places to start from -/

namespace SourceFiles

section Starts

variable {d : Disk} {root p : Path} {r : Place} {e : String} {es : List String}

/-- An entry has to exist below a root and does not. -/
def Missing (d : Disk) (root : Path) (e : String) : Prop :=
  Wildcard.hasPlaceholder e.toList = false ∧ d.find? (root.join ⟨e⟩) = none

instance (d : Disk) (root : Path) (e : String) : Decidable (Missing d root e) :=
  inferInstanceAs (Decidable (_ ∧ _))

/-- The paths that an entry names below a root. -/
def Begins (d : Disk) (root : Path) (e : String) (p : Path) : Prop :=
  if Wildcard.hasPlaceholder e.toList then p ∈ d.look (Wildcard.directories (root.join ⟨e⟩))
  else p = root.join ⟨e⟩

theorem startsOf_spec (d : Disk) (root : Path) (e : String) :
    match d.look (startsOf root e) with
    | .error _ => Missing d root e
    | .ok ps => ¬ Missing d root e ∧ ∀ p, p ∈ ps ↔ Begins d root e p := by
  unfold startsOf Missing Begins
  dsimp only
  by_cases hwild : Wildcard.hasPlaceholder e.toList = true
  · rw [if_pos hwild, Disk.look_bind d (.directories _), Disk.look_pure, hwild]
    simp
  · rw [if_neg hwild, Disk.look_bind d (.isThere _), Disk.look_isThere, Disk.look_pure,
      Bool.eq_false_iff.2 hwild]
    cases hfound : d.find? (root.join ⟨e⟩) with
    | none => simp
    | some f => simp

theorem starts_spec (d : Disk) (root : Path) (es : List String) :
    match d.look (starts root es) with
    | .error _ => ∃ e ∈ es, Missing d root e
    | .ok ps => (∀ e ∈ es, ¬ Missing d root e) ∧ ∀ p, p ∈ ps ↔ ∃ e ∈ es, Begins d root e p := by
  induction es with
  | nil => simp [starts]
  | cons e es ih =>
    have hfirst := startsOf_spec d root e
    rw [starts, Disk.look_bind d (.startsOf root e)]
    cases hstart : d.look (startsOf root e) with
    | error p =>
      rw [hstart] at hfirst
      exact ⟨e, List.mem_cons_self, hfirst⟩
    | ok ps =>
      rw [hstart] at hfirst
      dsimp only
      rw [Disk.look_bind d (.starts root es), Disk.look_pure]
      cases hrest : d.look (starts root es) with
      | error p =>
        rw [hrest] at ih
        obtain ⟨e', he', hmissing⟩ := ih
        exact ⟨e', List.mem_cons_of_mem e he', hmissing⟩
      | ok ps' =>
        rw [hrest] at ih
        refine ⟨List.forall_mem_cons.2 ⟨hfirst.1, ih.1⟩, fun p => ?_⟩
        rw [List.mem_append, hfirst.2, ih.2, List.exists_mem_cons_iff]

/-- The places that an entry includes, by the names that lead to them. -/
def Opens (d : Disk) (r : Place) (e : String) (ms : List String) : Prop :=
  if Wildcard.hasPlaceholder e.toList then
    Describes e ms ∧ d.content? (r ++ ms) = some .directory
  else ms = Entry.inner e

theorem stands_of_not_missing (hroot : d.find? root = some (r, .directory)) (he : Entry e)
    (hplain : ¬ Wildcard.hasPlaceholder e.toList = true) (hmissing : ¬ Missing d root e) :
    ∃ c, Stands d root r (Entry.inner e) c (root.join ⟨e⟩) := by
  cases hfound : d.find? (root.join ⟨e⟩) with
  | none => exact absurd ⟨Bool.eq_false_iff.2 hplain, hfound⟩ hmissing
  | some f => exact ⟨f.2, he.stands_join hroot hfound⟩

theorem stands_of_begins (hd : d.Tree) (hroot : d.find? root = some (r, .directory)) (he : Entry e)
    (hsearch : Wildcard.hasPlaceholder e.toList = true → Searchable d root r e)
    (hmissing : ¬ Missing d root e) (hp : Begins d root e p) :
    ∃ ms c, Opens d r e ms ∧ Stands d root r ms c p := by
  unfold Begins at hp
  unfold Opens
  by_cases hwild : Wildcard.hasPlaceholder e.toList = true
  · rw [if_pos hwild] at hp
    obtain ⟨ms, hms, hstands⟩ := Wildcard.stands_of_mem_directories hd hroot (hsearch hwild)
      he.relative he.parent_not_mem_parts hp
    obtain ⟨-, hdir⟩ := Disk.trail_of_find? hstands.found
    refine ⟨ms, .directory, ?_, hstands⟩
    rw [if_pos hwild]
    exact ⟨hms, hdir⟩
  · rw [if_neg hwild] at hp
    obtain ⟨c, hstands⟩ := stands_of_not_missing hroot he hwild hmissing
    rw [← hp] at hstands
    refine ⟨Entry.inner e, c, ?_, hstands⟩
    rw [if_neg hwild]

theorem exists_begins (hd : d.Tree) (hroot : d.find? root = some (r, .directory)) (he : Entry e)
    (hsearch : Wildcard.hasPlaceholder e.toList = true → Searchable d root r e)
    (hmissing : ¬ Missing d root e) {ms : List String} (hms : Opens d r e ms) :
    ∃ p c, Begins d root e p ∧ Stands d root r ms c p := by
  unfold Opens at hms
  unfold Begins
  by_cases hwild : Wildcard.hasPlaceholder e.toList = true
  · rw [if_pos hwild] at hms
    obtain ⟨p, hp, hstands⟩ := Wildcard.exists_mem_directories hd hroot (hsearch hwild)
      he.relative he.parent_not_mem_parts hms.1 hms.2
    refine ⟨p, .directory, ?_, hstands⟩
    rw [if_pos hwild]
    exact hp
  · rw [if_neg hwild] at hms
    obtain ⟨c, hstands⟩ := stands_of_not_missing hroot he hwild hmissing
    rw [← hms] at hstands
    refine ⟨root.join ⟨e⟩, c, ?_, hstands⟩
    rw [if_neg hwild]

end Starts

/-! ## Walks -/

section Walks

variable {d : Disk} {root p : Path} {r q : Place} {ms ns : List String} {c : Disk.Content}

/-- A walk goes through everything at and below a place. -/
theorem mem_places (hd : d.Tree) (h : d.find? p = some (q, c)) {k : FileKind} :
    (ns, k) ∈ (d.look (FileSystem.walk p)).places ↔
      ∃ c', d.content? (q ++ ns) = some c' ∧ k = c'.kind := by
  obtain ⟨-, hc⟩ := Disk.trail_of_find? h
  rw [Disk.look_walk d h, List.mem_cons]
  by_cases hns : ns = []
  · subst hns
    have hbelow : ([], k) ∉ (if c = .directory then d.below q else []) := by
      split
      · exact fun hmem => (Disk.mem_below.1 hmem).1 rfl
      · exact List.not_mem_nil
    rw [or_iff_left hbelow, List.append_nil, hc]
    simp
  · have hfirst : (ns, k) ≠ ([], c.kind) := fun e => hns (congrArg Prod.fst e)
    rw [or_iff_right hfirst]
    by_cases hdir : c = .directory
    · rw [if_pos hdir, Disk.mem_below, and_iff_right hns]
    · rw [if_neg hdir]
      -- nothing stands below a file
      constructor
      · intro hmem
        cases hmem
      · rintro ⟨c', hc', -⟩
        rw [hd.above_of_content? hns hc'] at hc
        exact absurd (Option.some.inj hc).symm hdir

/-- What stands below a place is spelled by its names. -/
theorem components_descend (hd : d.Tree) (h : Stands d root r ms c p) {c' : Disk.Content}
    (hc : d.content? (r ++ ms ++ ns) = some c') :
    (p.descend ns).components = root.components ++ (ms ++ ns).map .normal := by
  obtain ⟨htrail, -⟩ := Disk.trail_of_find? h.found
  have hplain : ∀ n ∈ ns, Path.Plain n :=
    fun n hn => (hd.named_of_content? hc n (List.mem_append_right _ hn)).plain
  rw [Path.components_descend hplain htrail.ne_empty, h.components, List.map_append,
    List.append_assoc]

/-- The source files of a walk that are kept. -/
def sources (keep : Path → Bool) (start : Path) (w : Walk) : List Path :=
  w.places.filterMap fun f =>
    let p := start.descend f.1
    if f.2 = .file && isSource p && keep p then some p else none

theorem mem_sources {keep : Path → Bool} {start x : Path} {w : Walk} :
    x ∈ sources keep start w ↔ ∃ ns, (ns, .file) ∈ w.places ∧ x = start.descend ns ∧
      isSource x = true ∧ keep x = true := by
  rw [sources, List.mem_filterMap]
  constructor
  · rintro ⟨⟨ns, k⟩, hplace, hkept⟩
    dsimp only at hkept
    split at hkept
    · next hcond =>
      cases hkept
      simp only [Bool.and_eq_true, decide_eq_true_eq] at hcond
      obtain ⟨⟨rfl, hsource⟩, hkeep⟩ := hcond
      exact ⟨ns, hplace, rfl, hsource, hkeep⟩
    · cases hkept
  · rintro ⟨ns, hplace, rfl, hsource, hkeep⟩
    refine ⟨(ns, .file), hplace, ?_⟩
    simp [hsource, hkeep]

/-- The walks fill one set. -/
theorem files_foldl_addWalk (keep : Path → Bool) (walks : List (Path × Walk)) (s : SourceFiles) :
    (walks.foldl (fun s w => addWalk keep w.1 s w.2) s).files =
      (walks.flatMap fun w => sources keep w.1 w.2).foldl (fun fs p => fs.insert p) s.files := by
  induction walks generalizing s with
  | nil => rfl
  | cons w walks ih =>
    rw [List.foldl_cons, ih, List.flatMap_cons, List.foldl_append]
    rfl

/-- The files that are found at and below some places. -/
theorem files_look_gather (d : Disk) (keep : Path → Bool) (ps : List Path) :
    (d.look (gather keep ps)).files =
      (ps.flatMap fun p => sources keep p (d.look (FileSystem.walk p))).foldl
        (fun fs p => fs.insert p) .empty := by
  have hwalk : ∀ p, d.look (do return (p, ← (FileSystem.walk p : StateM Disk Walk))) =
      (p, d.look (FileSystem.walk p)) := by
    intro p
    rw [Disk.look_bind d (.walk p)]
    rfl
  rw [gather, Disk.look_bind d (.mapM .walked ps), Disk.look_mapM d .walked, Disk.look_pure,
    files_foldl_addWalk]
  simp only [hwalk, List.flatMap_map]

theorem look_discover (d : Disk) (root : Path) (includes ignores : List String) :
    d.look (discover root includes ignores) =
      (d.look (places root includes)).map fun ps =>
        d.look (gather (fun p => !(Ignored.ofEntries root ignores).covers root p) ps) := by
  unfold discover
  dsimp only
  rw [Disk.look_bind d (.places root includes)]
  cases d.look (places root includes) with
  | error p => rfl
  | ok ps =>
    dsimp only
    rw [Disk.look_bind d (.gather _ ps)]
    rfl

end Walks

end SourceFiles

/-! ## Selected files -/

section Selection

variable {root p : Path} {base : List Path.Component} {ns : List String} {ignores : List String}

/-- Whether names are those of a source file. -/
def NamesSource (ns : List String) : Prop :=
  ∃ n stem, ns.getLast? = some n ∧ stem ≠ [] ∧ n.toList = stem ++ ".java".toList

theorem isSource_iff (h : p.components = base ++ ns.map .normal) (hns : ns ≠ []) :
    SourceFiles.isSource p = true ↔ NamesSource ns := by
  obtain ⟨above, n, rfl⟩ : ∃ above n, ns = above ++ [n] :=
    ⟨_, _, (List.dropLast_append_getLast hns).symm⟩
  have hname : p.fileName? = some n := by
    have hlast : p.components = (base ++ above.map .normal) ++ [Path.Component.normal n] := by
      rw [h, List.map_append, List.append_assoc]
      rfl
    exact Path.fileName?_of_components hlast
  rw [SourceFiles.isSource, beq_iff_eq, Path.extension?_eq_some_iff hname, NamesSource]
  simp only [List.getLast?_concat, Option.some.injEq]
  constructor
  · rintro ⟨stem, hstem, hn, -⟩
    exact ⟨n, stem, rfl, hstem, hn⟩
  · rintro ⟨_, stem, rfl, hstem, hn⟩
    exact ⟨stem, hstem, hn, by decide⟩

/-- The names of what an entry leaves out. -/
def Ignores (e : String) (ns : List String) : Prop :=
  if Wildcard.hasPlaceholder e.toList then
    ∃ w, Wildcard.parse e.toList = .ok w ∧ w.matches? ("/".intercalate ns).toList = true
  else Entry.inner e <+: ns

/-- A path that names lead to from a root: a beginning with the names behind it,
    which are what is left of it below the root. -/
structure Spelled (root : Path) (base : List Path.Component) (p : Path) (ns : List String) :
    Prop where
  components : p.components = base ++ ns.map .normal
  relative : root.relativeTo p = "/".intercalate ns

theorem spelled_of_components (h : p.components = root.components ++ ns.map .normal) :
    Spelled root root.components p ns :=
  ⟨h, Path.relativeTo_eq h⟩

/-- Ignored paths have the same beginning as the files that they are compared
    with. -/
def Aligned (root : Path) (base : List Path.Component) (ignores : List String) : Prop :=
  ∀ e ∈ ignores, Wildcard.hasPlaceholder e.toList = false →
    (root.join ⟨e⟩).components = base ++ (Entry.inner e).map .normal

theorem aligned_of_entries (hroot : root.text ≠ "") (hentries : ∀ e ∈ ignores, Entry e) :
    Aligned root root.components ignores :=
  fun e he _ => (hentries e he).components_join hroot

/-- The names decide what is left out. -/
theorem covers_iff (hignores : Aligned root base ignores) (h : Spelled root base p ns) :
    (Ignored.ofEntries root ignores).covers root p = true ↔ ∃ e ∈ ignores, Ignores e ns := by
  have hparse : ∀ e w, (Wildcard.parse e).toOption = some w ↔ Wildcard.parse e = .ok w := by
    intro e w
    cases Wildcard.parse e <;> simp [Except.toOption]
  rw [Ignored.covers, Bool.or_eq_true, List.any_eq_true, List.any_eq_true, h.relative]
  simp only [Ignored.ofEntries, List.partition_eq_filter_filter, List.mem_map, List.mem_filterMap,
    List.mem_filter, hparse]
  constructor
  · rintro (⟨_, ⟨e, ⟨he, hplain⟩, rfl⟩, hbelow⟩ | ⟨w, ⟨e, ⟨he, hwild⟩, hw⟩, hmatch⟩)
    · refine ⟨e, he, ?_⟩
      have hplain : Wildcard.hasPlaceholder e.toList = false := by simpa using hplain
      rw [Ignores, hplain]
      exact (Path.isBelow_iff h.components (hignores e he hplain)).1 hbelow
    · refine ⟨e, he, ?_⟩
      rw [Ignores, if_pos hwild]
      exact ⟨w, hw, hmatch⟩
  · rintro ⟨e, he, hignored⟩
    unfold Ignores at hignored
    by_cases hwild : Wildcard.hasPlaceholder e.toList = true
    · rw [if_pos hwild] at hignored
      obtain ⟨w, hw, hmatch⟩ := hignored
      exact .inr ⟨w, ⟨e, ⟨he, hwild⟩, hw⟩, hmatch⟩
    · rw [if_neg hwild] at hignored
      have hplain : Wildcard.hasPlaceholder e.toList = false := Bool.eq_false_iff.2 hwild
      refine .inl ⟨_, ⟨e, ⟨he, by simpa using hplain⟩, rfl⟩, ?_⟩
      exact (Path.isBelow_iff h.components (hignores e he hplain)).2 hignored

/-- The places that entries include below a root, by the names that lead to
    them. -/
def Included (d : Disk) (r : Place) (includes : List String) (ms : List String) : Prop :=
  (includes = [] ∧ ms = []) ∨ ∃ e ∈ includes, SourceFiles.Opens d r e ms

/-- The names that lead from the root of a project to one of its source files. -/
structure Selected (d : Disk) (r : Place) (includes ignores : List String) (ns : List String) :
    Prop where
  file : ∃ bytes, d.content? (r ++ ns) = some (.file bytes)
  source : NamesSource ns
  included : ∃ ms, Included d r includes ms ∧ ms <+: ns
  kept : ∀ e ∈ ignores, ¬ Ignores e ns

end Selection

namespace SourceFiles

section Discover

variable {d : Disk} {root p : Path} {base : List Path.Component} {r : Place}
variable {includes ignores : List String}

/-- The places to look at are those that the entries name, or the root if there
    are no entries. -/
theorem places_spec (d : Disk) (root : Path) (includes : List String) :
    match d.look (places root includes) with
    | .error _ => ∃ e ∈ includes, Missing d root e
    | .ok ps => (∀ e ∈ includes, ¬ Missing d root e) ∧
      ∀ p, p ∈ ps ↔ (includes = [] ∧ p = root) ∨ ∃ e ∈ includes, Begins d root e p := by
  by_cases hempty : includes = []
  · subst hempty
    refine ⟨by simp, fun p => ?_⟩
    rw [List.mem_singleton]
    simp
  · have hplaces : d.look (places root includes) = d.look (starts root includes) := by
      rw [places, if_neg (by simpa using hempty)]
    have hspec := starts_spec d root includes
    rw [hplaces]
    simpa [hempty] using hspec

theorem discover_eq_error_iff (d : Disk) (root : Path) (includes ignores : List String) :
    (∃ p, d.look (discover root includes ignores) = .error p) ↔
      ∃ e ∈ includes, Missing d root e := by
  have hspec := places_spec d root includes
  rw [look_discover]
  cases hplaces : d.look (places root includes) with
  | error p =>
    rw [hplaces] at hspec
    exact ⟨fun _ => hspec, fun _ => ⟨p, rfl⟩⟩
  | ok ps =>
    rw [hplaces] at hspec
    constructor
    · rintro ⟨p, hp⟩
      cases hp
    · rintro ⟨e, he, hmissing⟩
      exact absurd hmissing (hspec.1 e he)

/-- A place to look for files at, whose path spells what is found there. -/
structure Start (d : Disk) (root : Path) (base : List Path.Component) (r : Place)
    (ms : List String) (p : Path) : Prop where
  found : ∃ c, d.find? p = some (r ++ ms, c)
  spelled : ∀ ns bytes, d.content? (r ++ (ms ++ ns)) = some (.file bytes) →
    Spelled root base (p.descend ns) (ms ++ ns)

theorem start_of_stands (hd : d.Tree) {ms : List String} {c : Disk.Content}
    (h : Stands d root r ms c p) : Start d root root.components r ms p where
  found := ⟨c, h.found⟩
  spelled ns bytes hfile := by
    rw [← List.append_assoc] at hfile
    exact spelled_of_components (components_descend hd h hfile)

/-- A file below a place is kept if and only if it is selected. -/
theorem mem_sources_iff (hd : d.Tree) (hdir : d.content? r = some .directory)
    (hignores : Aligned root base ignores) {ms : List String}
    (hms : Included d r includes ms) (hp : Start d root base r ms p) {x : Path} :
    x ∈ sources (fun p => !(Ignored.ofEntries root ignores).covers root p) p
        (d.look (FileSystem.walk p)) ↔
      ∃ ns, x = p.descend ns ∧ Selected d r includes ignores (ms ++ ns) := by
  obtain ⟨c, hfound⟩ := hp.found
  rw [mem_sources]
  refine exists_congr fun ns => ?_
  rw [mem_places hd hfound, List.append_assoc, and_left_comm]
  refine and_congr_right fun hx => ?_
  -- whatever else is asked of the path can be asked of the names, once there is a file
  have hnames : ∀ bytes, d.content? (r ++ (ms ++ ns)) = some (.file bytes) →
      (isSource x = true ↔ NamesSource (ms ++ ns)) ∧
      ((!(Ignored.ofEntries root ignores).covers root x) = true ↔
        ∀ e ∈ ignores, ¬ Ignores e (ms ++ ns)) := by
    intro bytes hfile
    have hspelled : Spelled root base x (ms ++ ns) := by
      rw [hx]
      exact hp.spelled ns bytes hfile
    have hne : ms ++ ns ≠ [] := by
      intro hnil
      rw [hnil, List.append_nil, hdir] at hfile
      cases hfile
    refine ⟨isSource_iff hspelled.components hne, ?_⟩
    rw [Bool.not_eq_true', ← Bool.not_eq_true, covers_iff hignores hspelled]
    push Not
    rfl
  constructor
  · rintro ⟨⟨c', hc', hkind⟩, hsource, hkept⟩
    cases c' with
    | directory => cases hkind
    | file bytes =>
      obtain ⟨hsource', hkept'⟩ := hnames bytes hc'
      exact ⟨⟨bytes, hc'⟩, hsource'.1 hsource, ⟨ms, hms, List.prefix_append ms ns⟩,
        hkept'.1 hkept⟩
  · rintro ⟨⟨bytes, hfile⟩, hsource, -, hkept⟩
    obtain ⟨hsource', hkept'⟩ := hnames bytes hfile
    exact ⟨⟨_, hfile, rfl⟩, hsource'.2 hsource, hkept'.2 hkept⟩

/-- A set of files that are spelled alike, one for each selection of names. -/
structure Finds (root : Path) (base : List Path.Component) (selected : List String → Prop)
    (files : Path.Set) : Prop where
  sound : ∀ x ∈ files.toList, ∃ ns, selected ns ∧ Spelled root base x ns
  complete : ∀ ns, selected ns → ∃ x ∈ files.toList, x.components = base ++ ns.map .normal

namespace Finds

variable {selected : List String → Prop} {files : Path.Set}

theorem mem_relative (h : Finds root base selected files) (t : String) :
    t ∈ files.toList.map root.relativeTo ↔ ∃ ns, selected ns ∧ t = "/".intercalate ns := by
  rw [List.mem_map]
  constructor
  · rintro ⟨x, hx, rfl⟩
    obtain ⟨ns, hns, hspelled⟩ := h.sound x hx
    exact ⟨ns, hns, hspelled.relative⟩
  · rintro ⟨ns, hns, rfl⟩
    obtain ⟨x, hx, hcomponents⟩ := h.complete ns hns
    -- the file is spelled by some names, which can be no others
    obtain ⟨ms, -, hspelled⟩ := h.sound x hx
    have hnames : ms = ns :=
      Path.eq_of_append_normal (hspelled.components.symm.trans hcomponents)
    exact ⟨x, hx, hnames ▸ hspelled.relative⟩

/-- Files that are told apart by their components are told apart by their
    relative paths. -/
theorem nodup_relative (h : Finds root base selected files)
    (hplain : ∀ ns, selected ns → ∀ n ∈ ns, Path.Plain n) :
    (files.toList.map root.relativeTo).Nodup := by
  refine List.Nodup.map_on ?_ files.nodup_toList
  intro x hx y hy hrelative
  obtain ⟨ns, hns, hspelled⟩ := h.sound x hx
  obtain ⟨ms, hms, hspelled'⟩ := h.sound y hy
  rw [hspelled.relative, hspelled'.relative] at hrelative
  have hnames : ns = ms := Path.eq_of_intercalate_eq (hplain ns hns) (hplain ms hms) hrelative
  refine Sorted.eq_of_key_eq hx hy ?_
  rw [hspelled.components, hspelled'.components, hnames]

/-- No file is found twice, and the ones that are found are the selected ones. -/
theorem exact (hd : d.Tree) (h : Finds root base (Selected d r includes ignores) files) :
    (files.toList.map root.relativeTo).Nodup ∧
      ∀ t, t ∈ files.toList.map root.relativeTo ↔
        ∃ ns, Selected d r includes ignores ns ∧ t = "/".intercalate ns := by
  refine ⟨h.nodup_relative fun ns hns n hn => ?_, h.mem_relative⟩
  obtain ⟨bytes, hfile⟩ := hns.file
  exact (hd.named_of_content? hfile n (List.mem_append_right _ hn)).plain

end Finds

/-- The files below the included places are the selected ones. -/
theorem finds_gather (hd : d.Tree) (hdir : d.content? r = some .directory)
    (hignores : Aligned root base ignores) {ps : List Path}
    (hsound : ∀ p ∈ ps, ∃ ms, Included d r includes ms ∧ Start d root base r ms p)
    (hcomplete : ∀ ms, Included d r includes ms → ∃ p ∈ ps, Start d root base r ms p) :
    Finds root base (Selected d r includes ignores)
      (d.look (gather (fun p => !(Ignored.ofEntries root ignores).covers root p) ps)).files := by
  -- where a selected file below a place is spelled
  have hspelled : ∀ {p ms ns}, Start d root base r ms p →
      Selected d r includes ignores (ms ++ ns) →
      Spelled root base (p.descend ns) (ms ++ ns) := by
    intro p ms ns hp hselected
    obtain ⟨bytes, hfile⟩ := hselected.file
    exact hp.spelled ns bytes hfile
  rw [files_look_gather]
  refine ⟨fun x hx => ?_, fun ns hns => ?_⟩
  · have hfound := (Sorted.mem_of_mem_foldl_insert hx).resolve_left List.not_mem_nil
    obtain ⟨p, hp, hx⟩ := List.mem_flatMap.1 hfound
    obtain ⟨ms, hms, hstart⟩ := hsound p hp
    obtain ⟨ns, rfl, hselected⟩ := (mem_sources_iff hd hdir hignores hms hstart).1 hx
    exact ⟨ms ++ ns, hselected, hspelled hstart hselected⟩
  · obtain ⟨ms, hms, rest, rfl⟩ := hns.included
    obtain ⟨p, hp, hstart⟩ := hcomplete ms hms
    have hsource := (mem_sources_iff hd hdir hignores hms hstart).2 ⟨rest, rfl, hns⟩
    have hfound : p.descend rest ∈ ps.flatMap fun p => sources _ p (d.look (FileSystem.walk p)) :=
      List.mem_flatMap.2 ⟨p, hp, hsource⟩
    obtain ⟨x, hx, hcomponents⟩ := Sorted.exists_mem_foldl_insert (s := (.empty : Path.Set))
      (.inr hfound)
    refine ⟨x, hx, ?_⟩
    rw [hcomponents, (hspelled hstart hns).components]

/-- The places to look at are those that are included, each spelled below the
    root. -/
theorem places_stand (hd : d.Tree) (hroot : d.find? root = some (r, .directory))
    (hincludes : ∀ e ∈ includes, Entry e)
    (hsearch : ∀ e ∈ includes, Wildcard.hasPlaceholder e.toList = true → Searchable d root r e)
    {ps : List Path} (hplaces : d.look (places root includes) = .ok ps) :
    (∀ p ∈ ps, ∃ ms c, Included d r includes ms ∧ Stands d root r ms c p) ∧
      ∀ ms, Included d r includes ms → ∃ p ∈ ps, ∃ c, Stands d root r ms c p := by
  have hspec := places_spec d root includes
  rw [hplaces] at hspec
  obtain ⟨hthere, hmem⟩ := hspec
  have hstands : Stands d root r [] .directory root := by
    refine ⟨by simp, ?_⟩
    rw [List.append_nil]
    exact hroot
  constructor
  · intro p hp
    rcases (hmem p).1 hp with ⟨hnil, rfl⟩ | ⟨e, he, hbegins⟩
    · exact ⟨[], .directory, .inl ⟨hnil, rfl⟩, hstands⟩
    · obtain ⟨ms, c, hopens, hstands⟩ := stands_of_begins hd hroot (hincludes e he)
        (hsearch e he) (hthere e he) hbegins
      exact ⟨ms, c, .inr ⟨e, he, hopens⟩, hstands⟩
  · rintro ms (⟨hnil, rfl⟩ | ⟨e, he, hopens⟩)
    · exact ⟨root, (hmem root).2 (.inl ⟨hnil, rfl⟩), .directory, hstands⟩
    · obtain ⟨p, c, hbegins, hstands⟩ := exists_begins hd hroot (hincludes e he)
        (hsearch e he) (hthere e he) hopens
      exact ⟨p, (hmem p).2 (.inr ⟨e, he, hbegins⟩), c, hstands⟩

/-- Below a root the selected files are found. -/
theorem finds_discover (hd : d.Tree) (hroot : d.find? root = some (r, .directory))
    (hincludes : ∀ e ∈ includes, Entry e) (hignores : Aligned root root.components ignores)
    (hsearch : ∀ e ∈ includes, Wildcard.hasPlaceholder e.toList = true → Searchable d root r e)
    {s : SourceFiles} (hs : d.look (discover root includes ignores) = .ok s) :
    Finds root root.components (Selected d r includes ignores) s.files := by
  obtain ⟨-, hdir⟩ := Disk.trail_of_find? hroot
  rw [look_discover] at hs
  obtain ⟨ps, hplaces, rfl⟩ := map_eq_ok_iff.1 hs
  obtain ⟨hsound, hcomplete⟩ := places_stand hd hroot hincludes hsearch hplaces
  refine finds_gather hd hdir hignores ?_ ?_
  · intro p hp
    obtain ⟨ms, c, hms, hstands⟩ := hsound p hp
    exact ⟨ms, hms, start_of_stands hd hstands⟩
  · intro ms hms
    obtain ⟨p, hp, c, hstands⟩ := hcomplete ms hms
    exact ⟨p, hp, start_of_stands hd hstands⟩

/-- Discovery fails if and only if an included path is missing. Otherwise it
    finds the selected files, and no file twice. -/
theorem discover_exact :
    ((∃ p, d.look (discover root includes ignores) = .error p) ↔
        ∃ e ∈ includes, Missing d root e) ∧
      ∀ r, d.Tree → d.find? root = some (r, .directory) →
        (∀ e ∈ includes, Entry e) → (∀ e ∈ ignores, Entry e) →
        (∀ e ∈ includes, Wildcard.hasPlaceholder e.toList = true → Searchable d root r e) →
        ∀ s, d.look (discover root includes ignores) = .ok s →
          (s.files.toList.map root.relativeTo).Nodup ∧
            ∀ t, t ∈ s.files.toList.map root.relativeTo ↔
              ∃ ns, Selected d r includes ignores ns ∧ t = "/".intercalate ns := by
  refine ⟨discover_eq_error_iff d root includes ignores, ?_⟩
  intro r hd hroot hincludes hignores hsearch s hs
  obtain ⟨htrail, -⟩ := Disk.trail_of_find? hroot
  have haligned := aligned_of_entries htrail.ne_empty hignores
  exact (finds_discover hd hroot hincludes haligned hsearch hs).exact hd

/-- A project below `p`. -/
def sample : Disk :=
  [["p", "src", "A.java"], ["p", "src", "gen", "G.java"], ["p", "src", "util", "B.java"],
    ["p", "readme"]].foldl (fun d place => d.install place (.file [])) .empty

theorem discover_exact_sample :
    ∃ s, sample.look (discover ⟨"p"⟩ ["src", "s*"] ["src/gen", "**/B.java"]) = .ok s ∧
      (s.files.toList.map (Path.relativeTo ⟨"p"⟩)).Nodup ∧
        ∀ t, t ∈ s.files.toList.map (Path.relativeTo ⟨"p"⟩) ↔
          ∃ ns, Selected sample ["p"] ["src", "s*"] ["src/gen", "**/B.java"] ns ∧
            t = "/".intercalate ns := by
  have hread : Wildcard.ofParts "s*".toList = .ok [⟨[.char 's', .sequence]⟩] := by decide +kernel
  have hsearch : Searchable sample ⟨"p"⟩ ["p"] "s*" := by
    refine ⟨⟨⟨[.char 's', .sequence]⟩, by decide +kernel⟩,
      List.all_eq_true.1 (by decide), by decide +kernel, ?_, by decide +kernel⟩
    intro ws hws
    rw [hread] at hws
    cases hws
    decide +kernel
  have hincludes : ∀ e ∈ ["src", "s*"], Wildcard.hasPlaceholder e.toList = true →
      Searchable sample ⟨"p"⟩ ["p"] e := by
    intro e he hwild
    rcases List.mem_cons.1 he with rfl | he
    · cases hwild
    · rw [List.mem_singleton.1 he]
      exact hsearch
  have hignores : ∀ e ∈ ["src/gen", "**/B.java"], Entry e := by decide +kernel
  obtain ⟨hfails, hfinds⟩ := @discover_exact sample ⟨"p"⟩ ["src", "s*"]
    ["src/gen", "**/B.java"]
  cases hlook : sample.look (discover ⟨"p"⟩ ["src", "s*"] ["src/gen", "**/B.java"]) with
  | error p => exact absurd (hfails.1 ⟨p, hlook⟩) (by decide +kernel)
  | ok s =>
    refine ⟨s, rfl, ?_⟩
    exact hfinds ["p"] (by decide +kernel) (by decide +kernel) (by decide +kernel) hignores
      hincludes s hlook

/-- The same project, seen from within. -/
def sampleHere : Disk := { sample with here := ["p"] }

/-- From within a project a wildcard finds what is ignored: the paths that it
    gives do not start with `.`, and the ignored one does. -/
theorem discover_ignored_here :
    sampleHere.Tree ∧ sampleHere.find? ⟨"."⟩ = some (["p"], .directory) ∧
      Entry "*" ∧ Entry "src/gen" ∧ (∃ w, Wildcard.parse "*".toList = .ok w) ∧
      ∃ s, sampleHere.look (discover ⟨"."⟩ ["*"] ["src/gen"]) = .ok s ∧
        "src/gen/G.java" ∈ s.files.toList.map (Path.relativeTo ⟨"."⟩) ∧
        ¬ ∃ ns, Selected sampleHere ["p"] ["*"] ["src/gen"] ns ∧
          "src/gen/G.java" = "/".intercalate ns := by
  have hd : sampleHere.Tree := by decide +kernel
  refine ⟨hd, by decide +kernel, by decide +kernel, by decide +kernel,
    ⟨⟨[.sequence]⟩, by decide +kernel⟩, ?_⟩
  have hfound : ((sampleHere.look (discover ⟨"."⟩ ["*"] ["src/gen"])).toOption.map fun s =>
      s.files.toList.map (Path.relativeTo ⟨"."⟩)) =
        some ["src/A.java", "src/gen/G.java", "src/util/B.java"] := by
    decide +kernel
  cases hlook : sampleHere.look (discover ⟨"."⟩ ["*"] ["src/gen"]) with
  | error p =>
    rw [hlook] at hfound
    cases hfound
  | ok s =>
    rw [hlook] at hfound
    refine ⟨s, rfl, ?_, ?_⟩
    · have hfiles : s.files.toList.map (Path.relativeTo ⟨"."⟩) =
          ["src/A.java", "src/gen/G.java", "src/util/B.java"] := Option.some.inj hfound
      rw [hfiles]
      decide +kernel
    · rintro ⟨ns, hselected, hpath⟩
      obtain ⟨bytes, hfile⟩ := hselected.file
      have hplain : ∀ n ∈ ns, Path.Plain n :=
        fun n hn => (hd.named_of_content? hfile n (List.mem_append_right _ hn)).plain
      have hns : ["src", "gen", "G.java"] = ns :=
        Path.eq_of_intercalate_eq (by decide +kernel) hplain hpath
      have hbelow : Entry.inner "src/gen" <+: ["src", "gen", "G.java"] := by decide +kernel
      subst hns
      exact hselected.kept "src/gen" List.mem_cons_self hbelow

end Discover

end SourceFiles

end MessageHarvest
