import MessageHarvest.Proofs.Files.Path
import MessageHarvest.Proofs.Text.Trimming

/-! # The directories above a path

    A path has a parent until nothing is left of it, and each parent is spelled
    shorter, so the steps that are allowed for the way up always suffice
    (`ancestors_of_parent?`, `ancestors_of_no_parent`).

    The path of a place is spelled with the names that lead to it. The
    directories above it are the places with fewer of these names
    (`getElem?_ancestors_pathOf`). -/

namespace MessageHarvest

open Disk (pathOf)

namespace Path

/-! ## Climbing -/

section Climbing

variable {p q : Path} {m n : Nat}

/-- Steps that are left over at the top make no difference. -/
theorem climb_eq_climb (hm : p.text.toList.length ≤ m) (hn : p.text.toList.length ≤ n) :
    ancestors.climb m p = ancestors.climb n p := by
  induction m generalizing n p with
  | zero =>
    have hnone : p.parent? = none := by
      cases hp : p.parent? with
      | none => rfl
      | some q =>
        have := length_parent?_lt hp
        omega
    cases n <;> simp [ancestors.climb, hnone]
  | succ m ih =>
    -- a path with a parent is not empty, so `n` also allows a step here
    cases hp : p.parent? with
    | none => cases n <;> simp [ancestors.climb, hp]
    | some q =>
      have hshorter := length_parent?_lt hp
      obtain ⟨n, rfl⟩ := Nat.exists_eq_add_one_of_ne_zero (n := n) (by omega)
      simp only [ancestors.climb, hp]
      rw [ih (n := n) (by omega) (by omega)]

theorem ancestors_eq_climb (p : Path) : p.ancestors = ancestors.climb p.text.toList.length p := by
  rw [ancestors, String.length_toList]

theorem ancestors_of_parent? (h : p.parent? = some q) : p.ancestors = p :: q.ancestors := by
  have hshorter := length_parent?_lt h
  rw [ancestors_eq_climb, ancestors_eq_climb]
  obtain ⟨n, hn⟩ := Nat.exists_eq_add_one_of_ne_zero (n := p.text.toList.length) (by omega)
  rw [hn, ancestors.climb, h]
  exact congrArg (p :: ·) (climb_eq_climb (by omega) (Nat.le_refl _))

theorem ancestors_of_no_parent (h : p.parent? = none) : p.ancestors = [p] := by
  unfold ancestors
  cases p.text.length <;> simp [ancestors.climb, h]

end Climbing

/-! ## Paths of places -/

section Places

variable {ns : List String} {n : String}

theorem toList_text_pathOf (ns : List String) :
    (pathOf ns).text.toList = '/' :: Text.join ['/'] (ns.map String.toList) := by
  rw [pathOf, String.toList_append, String.toList_intercalate, Text.join_eq_intercalate]
  rfl

theorem text_pathOf_concat (hne : ns ≠ []) :
    (pathOf (ns ++ [n])).text = (pathOf ns).text ++ "/" ++ n := by
  rw [pathOf, pathOf, String.intercalate_append_of_ne_nil hne (List.cons_ne_nil n []),
    String.intercalate_singleton, ← String.append_assoc, ← String.append_assoc]

theorem pathOf_injective {ms : List String} (hns : ∀ n ∈ ns, Plain n) (hms : ∀ m ∈ ms, Plain m)
    (h : pathOf ns = pathOf ms) : ns = ms := by
  refine eq_of_intercalate_eq hns hms (String.toList_injective ?_)
  have htext := congrArg (fun p => p.text.toList) h
  simpa only [pathOf, String.toList_append, List.append_cancel_left_eq] using htext

theorem parts_join (h : ∀ m ∈ ns, Plain m) (hne : ns ≠ []) :
    parts (Text.join ['/'] (ns.map String.toList)) = ns.map String.toList := by
  refine Text.fields_join (fun t ht => ?_) (by simpa using hne)
  obtain ⟨m, hm, rfl⟩ := List.mem_map.1 ht
  exact (h m hm).no_slash

/-- Names are no idle parts. -/
theorem dropIdle_names (h : ∀ m ∈ ns, Plain m) :
    dropIdle (ns.map String.toList) = ns.map String.toList := by
  cases ns with
  | nil => rfl
  | cons m ns =>
    have hm : Plain m := h m List.mem_cons_self
    rw [dropIdle, List.map_cons, List.dropWhile_cons_of_neg]
    rw [ofPart?_eq_some_normal hm.ne_empty hm.ne_current hm.ne_parent]
    simp

theorem parent?_pathOf_nil : (pathOf []).parent? = none := by decide

/-- The parent of a place has all names but the last one. -/
theorem parent?_pathOf_concat (h : ∀ m ∈ ns ++ [n], Plain m) :
    (pathOf (ns ++ [n])).parent? = some (pathOf ns) := by
  have hreverse : ∀ ms : List String,
      (ms.map String.toList).reverse = ms.reverse.map String.toList :=
    fun ms => List.map_reverse.symm
  have hns : ∀ m ∈ ns.reverse, Plain m := fun m hm =>
    h m (List.mem_append_left [n] (List.mem_reverse.1 hm))
  have hall : ∀ m ∈ n :: ns.reverse, Plain m :=
    List.forall_mem_cons.2 ⟨h n (by simp), hns⟩
  -- read from the end, the parts are the names, and no name is skipped
  have hparts : dropIdle (parts (Text.join ['/'] ((ns ++ [n]).map String.toList))).reverse =
      n.toList :: ns.reverse.map String.toList := by
    rw [parts_join h (by simp), hreverse, List.reverse_concat, dropIdle_names hall, List.map_cons]
  unfold parent?
  rw [toList_text_pathOf]
  simp only [hparts]
  rw [dropIdle_names hns, ofReversed, hreverse, List.reverse_reverse, ← toList_text_pathOf,
    String.ofList_toList]

/-- A name below a place is spelled behind its names. -/
theorem child_pathOf (h : ∀ m ∈ ns, Plain m) (hn : Plain n) :
    (pathOf ns).child n = pathOf (ns ++ [n]) := by
  have hrelative := hn.isAbsolute
  unfold child join
  rcases List.eq_nil_or_concat ns with rfl | ⟨ms, m, rfl⟩
  · rw [hrelative]
    rfl
  · have hm : Plain m := h m (by simp)
    -- the path ends like its last name, so a slash is needed
    have hlast : (pathOf (ms ++ [m])).text.toList.getLast? ≠ some '/' := by
      obtain ⟨a, ha⟩ : ∃ a, (pathOf (ms ++ [m])).text = a ++ m := by
        by_cases hms : ms = []
        · exact ⟨"/", by simp [pathOf, hms]⟩
        · exact ⟨_, text_pathOf_concat hms⟩
      rw [ha, String.toList_append, List.getLast?_append_of_ne_nil _ hm.ne_empty]
      exact fun hslash => hm.no_slash (List.mem_of_getLast? hslash)
    have hstart : (pathOf (ms ++ [m])).text.toList.isEmpty = false := by
      rw [toList_text_pathOf]
      rfl
    rw [List.concat_eq_append, hrelative]
    simp only [Bool.false_eq_true, if_false, hstart, beq_eq_false_iff_ne.2 hlast, Bool.or_self]
    rw [← text_pathOf_concat (List.append_ne_nil_of_right_ne_nil ms (List.cons_ne_nil m []))]

/-- The directory some levels above a place has as many names less. -/
theorem getElem?_ancestors_pathOf (h : ∀ m ∈ ns, Plain m) (i : Nat) :
    (pathOf ns).ancestors[i]? =
      if i ≤ ns.length then some (pathOf (ns.take (ns.length - i))) else none := by
  induction i generalizing ns with
  | zero =>
    have hhead : (pathOf ns).ancestors[0]? = some (pathOf ns) := by
      cases hp : (pathOf ns).parent? with
      | none => rw [ancestors_of_no_parent hp]; rfl
      | some q => rw [ancestors_of_parent? hp]; rfl
    simp [hhead]
  | succ i ih =>
    rcases List.eq_nil_or_concat ns with rfl | ⟨ms, m, rfl⟩
    · rw [ancestors_of_no_parent parent?_pathOf_nil]
      simp
    · rw [List.concat_eq_append] at h ⊢
      have hms : ∀ m' ∈ ms, Plain m' := fun m' hm' => h m' (List.mem_append_left [m] hm')
      rw [ancestors_of_parent? (parent?_pathOf_concat h), List.getElem?_cons_succ, ih hms,
        List.length_append, List.length_singleton, Nat.add_sub_add_right,
        List.take_append_of_le_length (Nat.sub_le _ _)]
      simp

end Places

end Path

end MessageHarvest
