import MessageHarvest.Proofs.Files.Disk
import MessageHarvest.Proofs.Text.Utf8

/-! # Disks that are trees

    On a disk that is a tree every name can be spelled, and whatever has a place
    stands in a directory. Then looking at paths is looking at places:

    * `mem_childrenAt`, `mem_below`: what is listed in and below a directory.
    * `Trail`: a path whose names lead to a place. Names are added to it one by
      one (`Trail.child`), and what stands at its end is found there
      (`Trail.find?`). -/

namespace MessageHarvest

/-! ## Lengths -/

/-- A path with a name behind it is longer by a slash at most. -/
theorem Path.byteLength_child (p : Path) (name : String) :
    Text.byteLength (p.child name).text.toList ≤
      Text.byteLength p.text.toList + Text.byteLength name.toList + 1 := by
  unfold child join
  split
  · dsimp only
    omega
  · dsimp only
    rw [String.toList_append, String.toList_append, Text.byteLength_append, Text.byteLength_append]
    split
    · rw [show Text.byteLength "".toList = 0 from rfl]
      omega
    · rw [show Text.byteLength "/".toList = 1 from rfl]
      omega

namespace Disk

/-! ## Trees -/

/-- A name that a file or directory can have. -/
structure Named (n : String) : Prop where
  plain : Path.Plain n
  no_nul : '\x00' ∉ n.toList
  short : Text.byteLength n.toList ≤ 255

/-- A disk on which every entry has names and stands in a directory. -/
structure Tree (d : Disk) : Prop where
  named : ∀ e ∈ d.entries.toList, ∀ n ∈ e.place, Named n
  parent : ∀ e ∈ d.entries.toList, d.content? e.place.dropLast = some .directory

instance (n : String) : Decidable (Named n) :=
  decidable_of_iff (Path.Plain n ∧ '\x00' ∉ n.toList ∧ Text.byteLength n.toList ≤ 255)
    ⟨fun ⟨h, h', h''⟩ => ⟨h, h', h''⟩, fun h => ⟨h.1, h.2, h.3⟩⟩

instance (d : Disk) : Decidable d.Tree :=
  decidable_of_iff ((∀ e ∈ d.entries.toList, ∀ n ∈ e.place, Named n) ∧
      ∀ e ∈ d.entries.toList, d.content? e.place.dropLast = some .directory)
    ⟨fun ⟨h, h'⟩ => ⟨h, h'⟩, fun h => ⟨h.1, h.2⟩⟩

section Entries

variable {d : Disk} {q : Place} {c : Content}

theorem content?_eq_some_iff (hq : q ≠ []) :
    d.content? q = some c ↔ ∃ e ∈ d.entries.toList, e.place = q ∧ e.content = c := by
  rw [content?, if_neg hq, Option.map_eq_some_iff]
  simp only [Sorted.find?_eq_some_iff]
  constructor
  · rintro ⟨e, ⟨he, hplace⟩, hcontent⟩
    exact ⟨e, he, hplace, hcontent⟩
  · rintro ⟨e, he, hplace, hcontent⟩
    exact ⟨e, ⟨he, hplace⟩, hcontent⟩

/-- What is listed in a directory. -/
theorem mem_childrenAt {n : String} {k : FileKind} :
    (n, k) ∈ d.childrenAt q ↔ ∃ c, d.content? (q ++ [n]) = some c ∧ k = c.kind := by
  rw [childrenAt, List.mem_filterMap]
  constructor
  · rintro ⟨e, he, hlisted⟩
    split at hlisted
    · next name hname =>
      split at hlisted
      · next hplace =>
        cases hlisted
        obtain ⟨above, habove⟩ := List.getLast?_eq_some_iff.1 hname
        rw [habove, List.dropLast_concat] at hplace
        subst hplace
        exact ⟨e.content, (content?_eq_some_iff (by simp)).2 ⟨e, he, habove, rfl⟩, rfl⟩
      · cases hlisted
    · cases hlisted
  · rintro ⟨c, hc, rfl⟩
    obtain ⟨e, he, hplace, rfl⟩ := (content?_eq_some_iff (by simp)).1 hc
    refine ⟨e, he, ?_⟩
    simp [hplace]

/-- What is listed below a directory. -/
theorem mem_below {ns : List String} {k : FileKind} :
    (ns, k) ∈ d.below q ↔ ns ≠ [] ∧ ∃ c, d.content? (q ++ ns) = some c ∧ k = c.kind := by
  rw [below, List.mem_filterMap]
  constructor
  · rintro ⟨e, he, hlisted⟩
    split at hlisted
    · next hbelow =>
      cases hlisted
      rw [Bool.and_eq_true, List.isPrefixOf_iff_prefix] at hbelow
      obtain ⟨⟨ns, hns⟩, hne⟩ := hbelow
      rw [← hns, List.drop_left]
      have hnil : ns ≠ [] := by
        rintro rfl
        simp [← hns] at hne
      exact ⟨hnil, e.content, (content?_eq_some_iff (by simp [hnil])).2 ⟨e, he, hns.symm, rfl⟩, rfl⟩
    · cases hlisted
  · rintro ⟨hnil, c, hc, rfl⟩
    obtain ⟨e, he, hplace, rfl⟩ := (content?_eq_some_iff (by simp [hnil])).1 hc
    refine ⟨e, he, ?_⟩
    simp [hplace, hnil]

namespace Tree

theorem named_of_content? (hd : d.Tree) (h : d.content? q = some c) : ∀ n ∈ q, Named n := by
  intro n hn
  have hq : q ≠ [] := List.ne_nil_of_mem hn
  obtain ⟨e, he, rfl, -⟩ := (content?_eq_some_iff hq).1 h
  exact hd.named e he n hn

theorem parent_of_content? (hd : d.Tree) {n : String} (h : d.content? (q ++ [n]) = some c) :
    d.content? q = some .directory := by
  obtain ⟨e, he, hplace, -⟩ := (content?_eq_some_iff (by simp)).1 h
  have hparent := hd.parent e he
  rw [hplace, List.dropLast_concat] at hparent
  exact hparent

/-- Everything above a place is a directory. -/
theorem above_of_content? (hd : d.Tree) {ns : List String} (hns : ns ≠ [])
    (h : d.content? (q ++ ns) = some c) : d.content? q = some .directory := by
  induction ns generalizing q with
  | nil => exact absurd rfl hns
  | cons n ns ih =>
    rw [List.append_cons] at h
    by_cases hnil : ns = []
    · rw [hnil, List.append_nil] at h
      exact hd.parent_of_content? h
    · exact hd.parent_of_content? (ih hnil h)

theorem directory_of_append (hd : d.Tree) {ns : List String}
    (h : d.content? (q ++ ns) = some .directory) : d.content? q = some .directory := by
  by_cases hnil : ns = []
  · rw [hnil, List.append_nil] at h
    exact h
  · exact hd.above_of_content? hnil h

end Tree

end Entries

/-! ## Trails -/

/-- A path whose names lead to a place. -/
structure Trail (d : Disk) (p : Path) (q : Place) : Prop where
  ne_empty : p.text ≠ ""
  no_nul : '\x00' ∉ p.text.toList
  follow : d.follow (d.origin p) (names p.text.toList) = .ok q

section Trails

variable {d : Disk} {p : Path} {q : Place} {c : Content}

/-- The dot that a slash at the end stands for leads nowhere else. -/
theorem follow_dot {names : List (List Char)} {r : Place}
    (h : d.follow r (names ++ [['.']]) = .ok q) :
    d.follow r names = .ok q ∧ d.content? q = some .directory := by
  rw [follow_append] at h
  cases hr : d.follow r names with
  | error e =>
    rw [hr] at h
    cases h
  | ok q' =>
    rw [hr] at h
    obtain ⟨hdir, -, hstay⟩ := follow_cons_eq_ok h
    cases hstay
    exact ⟨rfl, hdir⟩

/-- What is found at a path stands at the end of its trail. -/
theorem trail_of_find? (h : d.find? p = some (q, c)) : Trail d p q ∧ d.content? q = some c := by
  unfold Disk.find? at h
  split at h
  · next place hplace =>
    obtain ⟨c', hc, heq⟩ := Option.map_eq_some_iff.1 h
    cases heq
    obtain ⟨hempty, hnul, -, hfollow⟩ := locateNames_eq_ok_iff.1 hplace
    refine ⟨⟨hempty, hnul, ?_⟩, hc⟩
    split at hfollow
    · exact (follow_dot hfollow).1
    · exact hfollow
  · cases h

namespace Trail

/-- What stands at the end of a trail is found, if the path is not too long. -/
theorem find? (h : Trail d p q) (hsize : Text.byteLength p.text.toList ≤ 4095)
    (hc : d.content? q = some c) (hend : endsInSlash p = false ∨ c = .directory) :
    d.find? p = some (q, c) := by
  have hlocate : d.locate p = .ok q := by
    refine locateNames_eq_ok_iff.2 ⟨h.ne_empty, h.no_nul, hsize, ?_⟩
    split
    · next hslash =>
      rcases hend with hend | rfl
      · rw [hend] at hslash
        cases hslash
      · rw [follow_append, h.follow]
        show d.follow q [['.']] = .ok q
        rw [follow_cons hc (by decide)]
        rfl
    · exact h.follow
  rw [Disk.find?, hlocate]
  simp [hc]

/-- A trail goes on with the names of a relative path. -/
theorem join (h : Trail d p q) {e : Path} (he : e.isAbsolute = false)
    (hnul : '\x00' ∉ e.text.toList) {q' : Place}
    (hq : d.follow q (names e.text.toList) = .ok q') : Trail d (p.join e) q' where
  ne_empty := Path.text_join_ne_empty he h.ne_empty
  no_nul := by
    rcases Path.text_join he h.ne_empty with ⟨s, hs, ht⟩ | ht
    · have hp := h.no_nul
      rw [hs] at hp
      rw [ht]
      simp_all
    · rw [ht]
      simp [h.no_nul, hnul]
  follow := by
    have horigin : d.origin (p.join e) = d.origin p := by
      rw [origin, origin, Path.isAbsolute_join he h.ne_empty]
    rw [names_join he, horigin, follow_append, h.follow]
    exact hq

/-- A trail goes on from a directory to what stands in it. -/
theorem child (h : Trail d p q) (hq : d.content? q = some .directory) {n : String} (hn : Named n) :
    Trail d (p.child n) (q ++ [n]) := by
  refine h.join hn.plain.isAbsolute hn.no_nul ?_
  rw [hn.plain.names, follow_cons hq hn.short]
  simp [Disk.follow, step, hn.plain.ne_current, hn.plain.ne_parent]

theorem descend (h : Trail d p q) (hd : d.Tree) {ns : List String}
    (hc : d.content? (q ++ ns) = some c) : Trail d (p.descend ns) (q ++ ns) := by
  induction ns generalizing p q with
  | nil => simpa [Path.descend] using h
  | cons n ns ih =>
    have hq : d.content? q = some .directory := hd.above_of_content? (List.cons_ne_nil n ns) hc
    have hn : Named n := hd.named_of_content? hc n (by simp)
    rw [List.append_cons] at hc ⊢
    exact ih (h.child hq hn) hc

/-- The rest of a trail is followed from the place in between. -/
theorem of_join (h : Trail d p q) {e : Path} (he : e.isAbsolute = false) {q' : Place}
    (hjoin : Trail d (p.join e) q') : d.follow q (names e.text.toList) = .ok q' := by
  have hfollow := hjoin.follow
  rw [origin, Path.isAbsolute_join he h.ne_empty, ← origin, names_join he, follow_append,
    h.follow] at hfollow
  exact hfollow

/-- What is found under a name stands in the directory before it. -/
theorem content?_of_find?_child (h : Trail d p q) {n : String} (hn : Path.Plain n) {q' : Place}
    (hfind : d.find? (p.child n) = some (q', c)) :
    d.content? q = some .directory ∧ q' = q ++ [n] ∧ d.content? (q ++ [n]) = some c := by
  obtain ⟨htrail, hc⟩ := trail_of_find? hfind
  have hfollow := h.of_join hn.isAbsolute htrail
  rw [hn.names] at hfollow
  obtain ⟨hq, -, hstep⟩ := follow_cons_eq_ok hfollow
  have hplace : q' = q ++ [n] := by
    simpa [Disk.follow, step, hn.ne_current, hn.ne_parent] using hstep.symm
  rw [← hplace]
  exact ⟨hq, rfl, hc⟩

end Trail

end Trails

/-! ## Lengths of paths below a place -/

/-- The bytes that names add to a path at most. -/
def weight : List String → Nat
  | [] => 0
  | n :: ns => Text.byteLength n.toList + 1 + weight ns

theorem weight_append (ns ms : List String) : weight (ns ++ ms) = weight ns + weight ms := by
  induction ns with
  | nil => simp [weight]
  | cons n ns ih =>
    rw [List.cons_append, weight, weight, ih]
    omega

theorem byteLength_descend (p : Path) (ns : List String) :
    Text.byteLength (p.descend ns).text.toList ≤ Text.byteLength p.text.toList + weight ns := by
  induction ns generalizing p with
  | nil => simp [Path.descend, weight]
  | cons n ns ih =>
    have hchild := p.byteLength_child n
    have hrest := ih (p.child n)
    rw [Path.descend, List.foldl_cons, ← Path.descend, weight]
    omega

end Disk

end MessageHarvest
