import Mathlib.Data.List.Sort
import MessageHarvest.Sorted

/-! # Looking up in sorted collections

    A sorted collection is determined by its elements, and each operation is
    described by what it does to them:

    * `find?_insertWith`: the element put in is found under its key, and every
      other key finds what it found before.
    * `insertWith_perm`: under a new key the list grows by exactly one element.
    * `ext_mem`: collections with the same elements are the same.

    A collection whose elements are their own keys is a set. Its operations
    are described by membership alone. -/

namespace MessageHarvest.Sorted

variable {α κ : Type} [Ord κ] [Std.TransOrd κ] {key : α → κ}

/-! ## Elements and keys -/

theorem ne_of_compare_eq_lt {a b : κ} (h : compare a b = .lt) : a ≠ b := by
  rintro rfl
  simp [Std.ReflCmp.compare_self] at h

/-- The keys of a collection are distinct. -/
theorem nodup_keys (s : Sorted α key) : (s.toList.map key).Nodup := by
  rw [List.Nodup, List.pairwise_map]
  exact s.increasing.imp ne_of_compare_eq_lt

/-- Two elements of a key are one element. -/
theorem eq_of_key_eq {s : Sorted α key} {a b : α} (ha : a ∈ s.toList) (hb : b ∈ s.toList)
    (h : key a = key b) : a = b :=
  List.inj_on_of_nodup_map s.nodup_keys ha hb h

theorem nodup_toList (s : Sorted α key) : s.toList.Nodup :=
  s.nodup_keys.of_map key

/-- Collections with the same elements are the same. -/
theorem ext_mem {s t : Sorted α key} (h : ∀ a, a ∈ s.toList ↔ a ∈ t.toList) : s = t := by
  apply ext
  have hp : s.toList.Perm t.toList :=
    (List.perm_ext_iff_of_nodup s.nodup_toList t.nodup_toList).2 h
  refine List.Perm.eq_of_pairwise (fun a b _ _ hab hba => ?_) s.increasing t.increasing hp
  rw [Std.OrientedCmp.gt_of_lt hab] at hba
  cases hba

/-- What stands before the head of an increasing list has a key of its own. -/
theorem key_ne_of_lt_head {a b : α} {bs : List α} (hab : compare (key a) (key b) = .lt)
    (hb : ∀ c ∈ bs, compare (key b) (key c) = .lt) : ∀ c ∈ b :: bs, key c ≠ key a := by
  intro c hc
  have hac : compare (key a) (key c) = .lt := by
    rcases List.mem_cons.1 hc with rfl | hc
    · exact hab
    · exact Std.TransCmp.lt_trans hab (hb c hc)
  exact (ne_of_compare_eq_lt hac).symm

variable [Std.LawfulEqOrd κ]

theorem find?_eq_some_iff {s : Sorted α key} {k : κ} {a : α} :
    s.find? k = some a ↔ a ∈ s.toList ∧ key a = k := by
  unfold find?
  constructor
  · intro h
    have hk := List.find?_some h
    exact ⟨List.mem_of_find?_eq_some h, Std.LawfulEqCmp.eq_of_compare (beq_iff_eq.1 hk)⟩
  · rintro ⟨ha, rfl⟩
    cases hf : s.toList.find? fun b => compare (key b) (key a) == .eq with
    | none =>
      have := List.find?_eq_none.1 hf a ha
      simp [Std.ReflCmp.compare_self] at this
    | some b =>
      have hk := List.find?_some hf
      have hb : key b = key a := Std.LawfulEqCmp.eq_of_compare (beq_iff_eq.1 hk)
      rw [eq_of_key_eq (List.mem_of_find?_eq_some hf) ha hb]

theorem find?_eq_none_iff {s : Sorted α key} {k : κ} :
    s.find? k = none ↔ ∀ a ∈ s.toList, key a ≠ k := by
  constructor
  · intro h a ha hk
    rw [find?_eq_some_iff.2 ⟨ha, hk⟩] at h
    cases h
  · intro h
    cases hf : s.find? k with
    | none => rfl
    | some a =>
      obtain ⟨ha, hk⟩ := find?_eq_some_iff.1 hf
      exact absurd hk (h a ha)

theorem contains_iff {s : Sorted α key} {k : κ} :
    s.contains k = true ↔ ∃ a ∈ s.toList, key a = k := by
  rw [contains, Option.isSome_iff_exists]
  exact exists_congr fun a => find?_eq_some_iff

/-! ## Putting elements in -/

section Insert

variable {f : α → α} (hf : ∀ a, key (f a) = key a) (a : α)

/-- What `place` puts into a list: the new element if its key is new, and
    otherwise the changed element in place of the old one. -/
theorem mem_place {a : α} {l : List α}
    (hl : l.Pairwise fun a b => compare (key a) (key b) = .lt) (x : α) :
    x ∈ place key f a l ↔
      (x ∈ l ∧ key x ≠ key a) ∨ (∃ b ∈ l, key b = key a ∧ x = f b) ∨
        (x = a ∧ ∀ b ∈ l, key b ≠ key a) := by
  induction l with
  | nil => simp [place]
  | cons b bs ih =>
    obtain ⟨hb, hbs⟩ := List.pairwise_cons.1 hl
    rw [place]
    split
    · next hab =>
      -- `a` comes first, and its key is new
      have hne := key_ne_of_lt_head hab hb
      rw [List.mem_cons]
      constructor
      · rintro (rfl | hx)
        · exact .inr (.inr ⟨rfl, hne⟩)
        · exact .inl ⟨hx, hne x hx⟩
      · rintro (⟨hx, -⟩ | ⟨c, hc, e, -⟩ | ⟨rfl, -⟩)
        · exact .inr hx
        · exact absurd e (hne c hc)
        · exact .inl rfl
    · next hab =>
      -- `b` has the key of `a`, and nothing behind it has
      have hab : key a = key b := Std.LawfulEqCmp.eq_of_compare hab
      have hne : ∀ c ∈ bs, key c ≠ key a := by
        intro c hc
        rw [hab]
        exact (ne_of_compare_eq_lt (hb c hc)).symm
      rw [List.mem_cons]
      constructor
      · rintro (rfl | hx)
        · exact .inr (.inl ⟨b, by simp, hab.symm, rfl⟩)
        · exact .inl ⟨List.mem_cons_of_mem b hx, hne x hx⟩
      · rintro (⟨hx, hk⟩ | ⟨c, hc, e, rfl⟩ | ⟨rfl, h⟩)
        · rcases List.mem_cons.1 hx with rfl | hx
          · exact absurd hab.symm hk
          · exact .inr hx
        · rcases List.mem_cons.1 hc with rfl | hc
          · exact .inl rfl
          · exact absurd e (hne c hc)
        · exact absurd hab.symm (h b (by simp))
    · next hab =>
      -- `b` stays, and `a` goes into the rest
      have hne : key b ≠ key a := ne_of_compare_eq_lt (Std.OrientedCmp.lt_of_gt hab)
      rw [List.mem_cons, ih hbs]
      constructor
      · rintro (rfl | ⟨hx, hk⟩ | ⟨c, hc, e, rfl⟩ | ⟨rfl, h⟩)
        · exact .inl ⟨by simp, hne⟩
        · exact .inl ⟨List.mem_cons_of_mem b hx, hk⟩
        · exact .inr (.inl ⟨c, List.mem_cons_of_mem b hc, e, rfl⟩)
        · refine .inr (.inr ⟨rfl, fun c hc => ?_⟩)
          rcases List.mem_cons.1 hc with rfl | hc
          · exact hne
          · exact h c hc
      · rintro (⟨hx, hk⟩ | ⟨c, hc, e, rfl⟩ | ⟨rfl, h⟩)
        · rcases List.mem_cons.1 hx with rfl | hx
          · exact .inl rfl
          · exact .inr (.inl ⟨hx, hk⟩)
        · rcases List.mem_cons.1 hc with rfl | hc
          · exact absurd e hne
          · exact .inr (.inr (.inl ⟨c, hc, e, rfl⟩))
        · exact .inr (.inr (.inr ⟨rfl, fun c hc => h c (List.mem_cons_of_mem b hc)⟩))

/-- The element put in is found under its key, and every other key finds what
    it found before. -/
theorem find?_insertWith [DecidableEq κ] (s : Sorted α key) (k : κ) :
    (s.insertWith f hf a).find? k =
      if k = key a then some ((s.find? k).elim a f) else s.find? k := by
  split
  · next hk =>
    subst hk
    rw [find?_eq_some_iff]
    cases h : s.find? (key a) with
    | none =>
      refine ⟨(mem_place s.increasing a).2 (.inr (.inr ⟨rfl, ?_⟩)), rfl⟩
      exact find?_eq_none_iff.1 h
    | some b =>
      obtain ⟨hb, hba⟩ := find?_eq_some_iff.1 h
      refine ⟨(mem_place s.increasing (f b)).2 (.inr (.inl ⟨b, hb, hba, rfl⟩)), ?_⟩
      show key (f b) = key a
      rw [hf, hba]
  · next hk =>
    ext x
    rw [find?_eq_some_iff, find?_eq_some_iff]
    constructor
    · rintro ⟨hx, rfl⟩
      rcases (mem_place s.increasing x).1 hx with ⟨hx, -⟩ | ⟨b, -, hb, rfl⟩ | ⟨rfl, -⟩
      · exact ⟨hx, rfl⟩
      · exact absurd ((hf b).trans hb) hk
      · exact absurd rfl hk
    · rintro ⟨hx, rfl⟩
      exact ⟨(mem_place s.increasing x).2 (.inl ⟨hx, hk⟩), rfl⟩

/-- Under a new key the list grows by exactly one element. -/
theorem insertWith_perm {a : α} {s : Sorted α key} (h : s.find? (key a) = none) :
    (s.insertWith f hf a).toList.Perm (a :: s.toList) := by
  have hnew : ∀ b ∈ s.toList, key b ≠ key a := find?_eq_none_iff.1 h
  have hnodup : (a :: s.toList).Nodup :=
    List.nodup_cons.2 ⟨fun ha => hnew a ha rfl, s.nodup_toList⟩
  refine (List.perm_ext_iff_of_nodup (nodup_toList _) hnodup).2 fun x => ?_
  rw [List.mem_cons]
  constructor
  · intro hx
    rcases (mem_place s.increasing x).1 hx with ⟨hx, -⟩ | ⟨b, hb, hba, -⟩ | ⟨rfl, -⟩
    · exact .inr hx
    · exact absurd hba (hnew b hb)
    · exact .inl rfl
  · rintro (rfl | hx)
    · exact (mem_place s.increasing x).2 (.inr (.inr ⟨rfl, hnew⟩))
    · exact (mem_place s.increasing x).2 (.inl ⟨hx, hnew x hx⟩)

theorem place_eq_map [DecidableEq κ] {a : α} {l : List α}
    (hl : l.Pairwise fun a b => compare (key a) (key b) = .lt) (h : ∃ b ∈ l, key b = key a) :
    place key f a l = l.map fun b => if key b = key a then f b else b := by
  induction l with
  | nil => simp at h
  | cons b bs ih =>
    obtain ⟨hb, hbs⟩ := List.pairwise_cons.1 hl
    obtain ⟨c, hc, hca⟩ := h
    rw [place]
    split
    · next hab => exact absurd hca (key_ne_of_lt_head hab hb c hc)
    · next hab =>
      have hab : key b = key a := (Std.LawfulEqCmp.eq_of_compare hab).symm
      have hrest : ∀ d ∈ bs, (if key d = key a then f d else d) = d := by
        intro d hd
        rw [if_neg (hab ▸ (ne_of_compare_eq_lt (hb d hd)).symm)]
      rw [List.map_cons, if_pos hab, List.map_congr_left hrest, List.map_id']
    · next hab =>
      have hab : key b ≠ key a := ne_of_compare_eq_lt (Std.OrientedCmp.lt_of_gt hab)
      have hc : c ∈ bs := (List.mem_cons.1 hc).resolve_left fun e => hab (e ▸ hca)
      rw [List.map_cons, if_neg hab, ih hbs ⟨c, hc, hca⟩]

/-- Under a key that is there the list keeps its shape. -/
theorem toList_insertWith [DecidableEq κ] {a : α} {s : Sorted α key}
    (h : ∃ b ∈ s.toList, key b = key a) :
    (s.insertWith f hf a).toList = s.toList.map fun b => if key b = key a then f b else b :=
  place_eq_map s.increasing h

end Insert

/-- A key that is removed finds nothing, and every other key finds what it
    found before. -/
theorem find?_erase [DecidableEq κ] (s : Sorted α key) (k k' : κ) :
    (s.erase k).find? k' = if k' = k then none else s.find? k' := by
  have hmem : ∀ a, a ∈ (s.erase k).toList ↔ a ∈ s.toList ∧ key a ≠ k := by
    intro a
    simp [erase, Std.LawfulEqCmp.compare_eq_iff_eq]
  split
  · next hk =>
    subst hk
    exact find?_eq_none_iff.2 fun a ha => ((hmem a).1 ha).2
  · next hk =>
    ext a
    rw [find?_eq_some_iff, find?_eq_some_iff, hmem]
    constructor
    · rintro ⟨⟨ha, -⟩, rfl⟩
      exact ⟨ha, rfl⟩
    · rintro ⟨ha, rfl⟩
      exact ⟨⟨ha, hk⟩, rfl⟩

/-! ## Filling a collection -/

section Filling

variable {s : Sorted α key} {l : List α} {x : α}

theorem mem_of_mem_insert {a : α} (h : x ∈ (s.insert a).toList) : x ∈ s.toList ∨ x = a := by
  rcases (mem_place s.increasing x).1 h with ⟨hx, -⟩ | ⟨b, hb, -, rfl⟩ | ⟨rfl, -⟩
  · exact .inl hx
  · exact .inl hb
  · exact .inr rfl

/-- Nothing gets lost but other elements of a key. -/
theorem exists_mem_insert {a : α} (h : x ∈ s.toList ∨ x = a) :
    ∃ y ∈ (s.insert a).toList, key y = key x := by
  by_cases hkey : key x = key a
  · by_cases hnew : ∀ b ∈ s.toList, key b ≠ key a
    · exact ⟨a, (mem_place s.increasing a).2 (.inr (.inr ⟨rfl, hnew⟩)), hkey.symm⟩
    · push Not at hnew
      obtain ⟨b, hb, hba⟩ := hnew
      exact ⟨b, (mem_place s.increasing b).2 (.inr (.inl ⟨b, hb, hba, rfl⟩)), hba.trans hkey.symm⟩
  · have hx : x ∈ s.toList := h.resolve_right fun e => hkey (congrArg key e)
    exact ⟨x, (mem_place s.increasing x).2 (.inl ⟨hx, hkey⟩), rfl⟩

theorem mem_of_mem_foldl_insert (h : x ∈ (l.foldl (fun s a => s.insert a) s).toList) :
    x ∈ s.toList ∨ x ∈ l := by
  induction l generalizing s with
  | nil => exact .inl h
  | cons a l ih =>
    rcases ih h with hx | hx
    · rcases mem_of_mem_insert hx with hx | rfl
      · exact .inl hx
      · exact .inr List.mem_cons_self
    · exact .inr (List.mem_cons_of_mem a hx)

/-- A list fills a collection with all of its keys. -/
theorem exists_mem_foldl_insert (h : x ∈ s.toList ∨ x ∈ l) :
    ∃ y ∈ (l.foldl (fun s a => s.insert a) s).toList, key y = key x := by
  induction l generalizing s x with
  | nil => exact ⟨x, h.resolve_right List.not_mem_nil, rfl⟩
  | cons a l ih =>
    by_cases hl : x ∈ l
    · exact ih (.inr hl)
    · have hx : x ∈ s.toList ∨ x = a := h.imp_right fun hx => (List.mem_cons.1 hx).resolve_right hl
      obtain ⟨y, hy, hyx⟩ := exists_mem_insert hx
      obtain ⟨z, hz, hzy⟩ := ih (.inl hy)
      exact ⟨z, hz, hzy.trans hyx⟩

end Filling

/-! ## Sets -/

section Sets

variable {s t : Sorted κ fun k => k}

theorem mem_insert {a x : κ} : x ∈ (s.insert a).toList ↔ x ∈ s.toList ∨ x = a := by
  unfold insert insertWith
  rw [mem_place s.increasing]
  constructor
  · rintro (⟨hx, -⟩ | ⟨b, hb, -, rfl⟩ | ⟨rfl, -⟩)
    · exact .inl hx
    · exact .inl hb
    · exact .inr rfl
  · intro h
    by_cases ha : a ∈ s.toList
    · rcases h with hx | rfl
      · by_cases hxa : x = a
        · exact .inr (.inl ⟨a, ha, rfl, hxa⟩)
        · exact .inl ⟨hx, hxa⟩
      · exact .inr (.inl ⟨x, ha, rfl, rfl⟩)
    · have hne : ∀ b ∈ s.toList, b ≠ a := fun b hb e => ha (e ▸ hb)
      rcases h with hx | rfl
      · exact .inl ⟨hx, hne x hx⟩
      · exact .inr (.inr ⟨rfl, hne⟩)

theorem mem_foldl_insert {l : List κ} {x : κ} :
    x ∈ (l.foldl (fun s a => s.insert a) s).toList ↔ x ∈ s.toList ∨ x ∈ l := by
  induction l generalizing s with
  | nil => simp
  | cons a l ih =>
    rw [List.foldl_cons, ih, mem_insert, List.mem_cons, or_assoc]

theorem mem_union {x : κ} : x ∈ (s.union t).toList ↔ x ∈ s.toList ∨ x ∈ t.toList :=
  mem_foldl_insert

@[simp] theorem mem_ofList {l : List κ} {x : κ} :
    x ∈ (ofList l : Sorted κ fun k => k).toList ↔ x ∈ l := by
  rw [ofList, mem_foldl_insert]
  simp

/-- A set is made again from the list of its elements. -/
@[simp] theorem ofList_toList : ofList s.toList = s :=
  ext_mem fun _ => mem_ofList

end Sets

end MessageHarvest.Sorted
