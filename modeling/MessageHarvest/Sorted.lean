/-! # Sorted collections

    A `Sorted` collection holds elements with strictly increasing keys. With
    the elements themselves as keys it is a sorted set, with a field as key a
    sorted table.

    * `insertWith f a` puts `a` in its place, or applies `f` to the element
      that is already there.
    * `erase k` removes the element of key `k`, `find? k` gives it. -/

namespace MessageHarvest

/-- Elements with strictly increasing keys. -/
structure Sorted (α : Type) {κ : Type} [Ord κ] (key : α → κ) where
  toList : List α
  increasing : toList.Pairwise fun a b => compare (key a) (key b) = .lt

namespace Sorted

variable {α κ : Type} [Ord κ] {key : α → κ}

/-! ## Lists -/

/-- Puts `a` in its place, or applies `f` to the element with its key. -/
def place (key : α → κ) (f : α → α) (a : α) : List α → List α
  | [] => [a]
  | b :: bs =>
    match compare (key a) (key b) with
    | .lt => a :: b :: bs
    | .eq => f b :: bs
    | .gt => b :: place key f a bs

theorem key_of_mem_place {f : α → α} (hf : ∀ a, key (f a) = key a) {a x : α} {l : List α}
    (h : x ∈ place key f a l) : key x = key a ∨ ∃ b ∈ l, key x = key b := by
  induction l with
  | nil => simp_all [place]
  | cons b bs ih =>
    rw [place] at h
    split at h
    · rcases List.mem_cons.1 h with rfl | h
      · exact .inl rfl
      · exact .inr ⟨x, h, rfl⟩
    · rcases List.mem_cons.1 h with rfl | h
      · exact .inr ⟨b, by simp, hf b⟩
      · exact .inr ⟨x, by simp [h], rfl⟩
    · rcases List.mem_cons.1 h with rfl | h
      · exact .inr ⟨x, by simp, rfl⟩
      · rcases ih h with h | ⟨c, hc, h⟩
        · exact .inl h
        · exact .inr ⟨c, by simp [hc], h⟩

theorem pairwise_place [Std.TransOrd κ] {f : α → α} (hf : ∀ a, key (f a) = key a) (a : α)
    {l : List α} (h : l.Pairwise fun a b => compare (key a) (key b) = .lt) :
    (place key f a l).Pairwise fun a b => compare (key a) (key b) = .lt := by
  induction l with
  | nil => simp [place]
  | cons b bs ih =>
    have ⟨hb, hbs⟩ := List.pairwise_cons.1 h
    rw [place]
    split
    · next hab =>
      refine List.pairwise_cons.2 ⟨fun x hx => ?_, h⟩
      rcases List.mem_cons.1 hx with rfl | hx
      · exact hab
      · exact Std.TransCmp.lt_trans hab (hb x hx)
    · exact List.pairwise_cons.2 ⟨fun x hx => by rw [hf b]; exact hb x hx, hbs⟩
    · next hab =>
      refine List.pairwise_cons.2 ⟨fun x hx => ?_, ih hbs⟩
      rcases key_of_mem_place hf hx with hk | ⟨c, hc, hk⟩
      · rw [hk]; exact Std.OrientedCmp.lt_of_gt hab
      · rw [hk]; exact hb c hc

/-! ## Collections -/

/-- No elements. -/
def empty : Sorted α key := ⟨[], .nil⟩

instance : Inhabited (Sorted α key) := ⟨empty⟩

instance [DecidableEq α] : DecidableEq (Sorted α key) := fun s t =>
  if h : s.toList = t.toList then .isTrue (by cases s; cases t; simp_all)
  else .isFalse (fun e => h (congrArg toList e))

/-- The number of elements. -/
def size (s : Sorted α key) : Nat := s.toList.length

/-- The element of a given key. -/
def find? (s : Sorted α key) (k : κ) : Option α :=
  s.toList.find? fun a => compare (key a) k == .eq

/-- Whether there is an element of a given key. -/
def contains (s : Sorted α key) (k : κ) : Bool := (s.find? k).isSome

/-- Puts `a` in its place, or applies `f`, which keeps keys, to the element
    with its key. -/
def insertWith [Std.TransOrd κ] (f : α → α) (hf : ∀ a, key (f a) = key a) (a : α)
    (s : Sorted α key) : Sorted α key :=
  ⟨place key f a s.toList, pairwise_place hf a s.increasing⟩

/-- Puts `a` in its place unless there is an element with its key. -/
def insert [Std.TransOrd κ] (a : α) (s : Sorted α key) : Sorted α key :=
  s.insertWith (fun b => b) (fun _ => rfl) a

/-- Removes the element of a given key. -/
def erase (k : κ) (s : Sorted α key) : Sorted α key :=
  ⟨s.toList.filter (fun a => compare (key a) k != .eq), s.increasing.filter _⟩

/-- Adds the elements of `t` that have a new key. -/
def union [Std.TransOrd κ] (s t : Sorted α key) : Sorted α key :=
  t.toList.foldl (fun s a => s.insert a) s

/-- The elements of a list, the first one of each key. -/
def ofList [Std.TransOrd κ] (l : List α) : Sorted α key := l.foldl (fun s a => s.insert a) empty

@[simp] theorem toList_empty : (empty : Sorted α key).toList = [] := rfl

@[simp] theorem find?_empty (k : κ) : (empty : Sorted α key).find? k = none := rfl

@[ext] theorem ext {s t : Sorted α key} (h : s.toList = t.toList) : s = t := by
  cases s; cases t; simp_all

end Sorted

end MessageHarvest
