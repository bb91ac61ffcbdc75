import MessageHarvest.Text.Blank
import MessageHarvest.Text.Split

/-! # Trimming, cutting and lines

    How text that was put together comes apart again:

    * `trim_between`: text between two characters that are not blank is not
      touched by trimming.
    * `lines_flatMap`: lines that were ended one by one are read back, up to
      the blanks that `trim` removes anyway (`trim_chomp`).
    * `lines_append_feed`, `lines_concat_feed`, `lines_firstLines`: the lines of
      two texts with a line feed between them, and of the start of a text.
    * `splitFirst_eq_some_iff`, `splitLast_eq_some_iff`: where a text is cut.
    * `forall_of_mem_fields`: no piece of a text has a separator in it. -/

namespace MessageHarvest.Text

variable {c d : Char} {p : Char → Bool} {t a b : List Char}

/-! ## Trimming -/

theorem trimStart_cons (h : isBlank c = false) : trimStart (c :: t) = c :: t := by
  simp [trimStart, h]

theorem trimEnd_concat (h : isBlank c = false) : trimEnd (t ++ [c]) = t ++ [c] := by
  simp [trimEnd, h]

theorem trimEnd_concat_blank (h : isBlank c = true) : trimEnd (t ++ [c]) = trimEnd t := by
  simp [trimEnd, h]

theorem trimEnd_cons (h : isBlank c = false) : trimEnd (c :: t) = c :: trimEnd t := by
  unfold trimEnd
  rw [List.reverse_cons, List.dropWhile_append]
  split
  · next he =>
    rw [List.isEmpty_iff.1 he]
    simp [h]
  · simp

/-- Text that starts with a character that is not blank keeps it. -/
theorem trim_cons (h : isBlank c = false) : trim (c :: t) = c :: trimEnd t := by
  rw [trim, trimStart_cons h, trimEnd_cons h]

theorem trim_concat_blank (h : isBlank c = true) : trim (t ++ [c]) = trim t := by
  unfold trim trimStart
  rw [List.dropWhile_append]
  split
  · next he =>
    rw [List.isEmpty_iff.1 he]
    simp [h]
  · exact trimEnd_concat_blank h

theorem trimEnd_append_exists (t : List Char) : ∃ b, t = trimEnd t ++ b := by
  refine ⟨(t.reverse.takeWhile isBlank).reverse, ?_⟩
  unfold trimEnd
  rw [← List.reverse_append, List.takeWhile_append_dropWhile, List.reverse_reverse]

/-- Text between two characters that are not blank is trimmed already. -/
theorem trim_between (hc : isBlank c = false) (hd : isBlank d = false) :
    trim (c :: (t ++ [d])) = c :: (t ++ [d]) := by
  rw [trim_cons hc, trimEnd_concat hd]

theorem mem_of_mem_trim (h : c ∈ trim t) : c ∈ t := by
  obtain ⟨b, hb⟩ := trimEnd_append_exists (trimStart t)
  have hstart : c ∈ trimStart t := by
    rw [hb]
    exact List.mem_append_left b h
  exact (List.dropWhile_suffix isBlank).subset hstart

/-! ## Lines -/

theorem linesKept_append (h : '\n' ∉ a) :
    linesKept (a ++ '\n' :: t) = (a ++ ['\n']) :: linesKept t := by
  induction a with
  | nil => simp [linesKept]
  | cons c a ih =>
    rw [List.mem_cons, not_or] at h
    rw [List.cons_append, linesKept, if_neg (Ne.symm h.1), ih h.2]
    rfl

/-- Lines that were ended one by one come apart again. -/
theorem lines_flatMap {ls : List (List Char)} (h : ∀ l ∈ ls, '\n' ∉ l) :
    lines (ls.flatMap fun l => l ++ ['\n']) = ls.map fun l => chomp (l ++ ['\n']) := by
  induction ls with
  | nil => rfl
  | cons l ls ih =>
    have hl := linesKept_append (t := ls.flatMap fun l => l ++ ['\n']) (h l (by simp))
    have ihl := ih fun l' hl' => h l' (by simp [hl'])
    unfold lines at ihl ⊢
    rw [List.flatMap_cons, List.append_assoc, List.singleton_append, hl, List.map_cons, ihl,
      List.map_cons]

/-- The first line starts like the text. -/
theorem linesKept_cons (c : Char) (t : List Char) :
    ∃ l ls, linesKept (c :: t) = (c :: l) :: ls := by
  rw [linesKept]
  split
  · next h => exact ⟨[], linesKept t, by rw [h]⟩
  · cases linesKept t with
    | nil => exact ⟨[], [], rfl⟩
    | cons l ls => exact ⟨l, ls, rfl⟩

/-- A kept line has a line feed at its end or nowhere. -/
theorem eq_of_mem_linesKept {l : List Char} (h : l ∈ linesKept t) :
    ∃ a, '\n' ∉ a ∧ (l = a ++ ['\n'] ∨ l = a) := by
  induction t generalizing l with
  | nil => cases h
  | cons c t ih =>
    rw [linesKept] at h
    split at h
    · rcases List.mem_cons.1 h with rfl | h
      · exact ⟨[], by simp, .inl rfl⟩
      · exact ih h
    · next hc =>
      cases hk : linesKept t with
      | nil =>
        rw [hk] at h
        have hl : l = [c] := by simpa using h
        exact ⟨[c], by simpa using Ne.symm hc, .inr hl⟩
      | cons l' ls =>
        rw [hk] at h ih
        rcases List.mem_cons.1 h with rfl | h
        · obtain ⟨a, ha, e⟩ := ih (List.mem_cons_self)
          refine ⟨c :: a, by simp [ha, Ne.symm hc], ?_⟩
          rcases e with rfl | rfl
          · exact .inl rfl
          · exact .inr rfl
        · exact ih (List.mem_cons_of_mem l' h)

/-- Without a line feed at its end there is nothing to take off. -/
theorem chomp_of_not_mem (h : '\n' ∉ t) : chomp t = t := by
  have hr : '\n' ∉ t.reverse := by simpa using h
  unfold chomp
  split
  · next e => simp [e] at hr
  · next e => simp [e] at hr
  · rfl

/-- An ended line loses its line feed and at most one carriage return. -/
theorem chomp_concat (t : List Char) :
    chomp (t ++ ['\n']) = t ∨ t = chomp (t ++ ['\n']) ++ ['\r'] := by
  unfold chomp
  split
  · next r e =>
    right
    have e' : t.reverse = '\r' :: r := by simpa using e
    rw [← List.reverse_reverse t, e']
    simp
  · next r _ e =>
    left
    have e' : t.reverse = r := by simpa using e
    rw [← e', List.reverse_reverse]
  · next h => exact absurd (by simp) (h t.reverse)

/-- The carriage return that goes with a line feed is blank. -/
theorem trim_chomp (t : List Char) : trim (chomp (t ++ ['\n'])) = trim t := by
  rcases chomp_concat t with h | h
  · rw [h]
  · calc trim (chomp (t ++ ['\n']))
        = trim (chomp (t ++ ['\n']) ++ ['\r']) := (trim_concat_blank (by decide)).symm
      _ = trim t := by rw [← h]

/-- A line has no line feed in it. -/
theorem not_mem_of_mem_lines {l : List Char} (h : l ∈ lines t) : '\n' ∉ l := by
  obtain ⟨k, hk, rfl⟩ := List.mem_map.1 h
  obtain ⟨a, ha, rfl | rfl⟩ := eq_of_mem_linesKept hk
  · rcases chomp_concat a with e | e
    · rwa [e]
    · intro hmem
      apply ha
      rw [e]
      exact List.mem_append_left _ hmem
  · rwa [chomp_of_not_mem ha]

/-! ## Texts line by line -/

/-- A text is one line, or a line with its line feed and a text behind it. -/
@[elab_as_elim]
theorem lineInduction {P : List Char → Prop} (last : ∀ a, '\n' ∉ a → P a)
    (line : ∀ a t, '\n' ∉ a → P t → P (a ++ '\n' :: t)) (t : List Char) : P t := by
  induction hlength : t.length using Nat.strongRecOn generalizing t with
  | ind n ih =>
    subst hlength
    by_cases h : '\n' ∈ t
    · obtain ⟨a, rest, rfl, ha⟩ := List.eq_append_cons_of_mem h
      have hshorter : rest.length < (a ++ '\n' :: rest).length := by
        simp only [List.length_append, List.length_cons]
        omega
      exact line a rest ha (ih _ hshorter rest rfl)
    · exact last t h

theorem linesKept_of_not_mem (h : '\n' ∉ a) (hne : a ≠ []) : linesKept a = [a] := by
  induction a with
  | nil => exact absurd rfl hne
  | cons c a ih =>
    rw [List.mem_cons, not_or] at h
    rw [linesKept, if_neg (Ne.symm h.1)]
    by_cases ha : a = []
    · rw [ha]
      rfl
    · rw [ih h.2 ha]

theorem linesKept_append_feed (a t : List Char) :
    linesKept (a ++ '\n' :: t) = linesKept (a ++ ['\n']) ++ linesKept t := by
  induction a using lineInduction with
  | last a ha => rw [linesKept_append ha, linesKept_append (t := []) ha]; rfl
  | line a rest ha ih =>
    rw [List.append_assoc, List.append_assoc, List.cons_append, List.cons_append,
      linesKept_append ha, linesKept_append ha, ih]
    rfl

/-- A line feed at the end ends the last line, or is a line of its own. -/
theorem linesKept_concat_feed (a : List Char) :
    linesKept (a ++ ['\n']) = linesKept a ++ [['\n']] ∨
      ∃ ls l, linesKept a = ls ++ [l] ∧ '\n' ∉ l ∧
        linesKept (a ++ ['\n']) = ls ++ [l ++ ['\n']] := by
  induction a using lineInduction with
  | last a ha =>
    have hend := linesKept_append (t := []) ha
    by_cases hne : a = []
    · left
      rw [hne]
      rfl
    · right
      exact ⟨[], a, linesKept_of_not_mem ha hne, ha, hend⟩
  | line a rest ha ih =>
    have hend : linesKept (a ++ '\n' :: rest ++ ['\n']) =
        (a ++ ['\n']) :: linesKept (rest ++ ['\n']) := by
      rw [List.append_assoc, List.cons_append, linesKept_append ha]
    rw [hend, linesKept_append ha]
    rcases ih with h | ⟨ls, l, h, hl, h'⟩
    · left
      rw [h]
      rfl
    · right
      exact ⟨(a ++ ['\n']) :: ls, l, by rw [h]; rfl, hl, by rw [h']; rfl⟩

/-- Behind a line feed the lines start afresh. -/
theorem lines_append_feed (a t : List Char) :
    lines (a ++ '\n' :: t) = lines (a ++ ['\n']) ++ lines t := by
  unfold lines
  rw [linesKept_append_feed, List.map_append]

/-- A line feed at the end adds an empty line, or the last line loses a carriage
    return at most. -/
theorem lines_concat_feed (a : List Char) :
    lines (a ++ ['\n']) = lines a ++ [[]] ∨
      ∃ ls l, lines a = ls ++ [l] ∧ lines (a ++ ['\n']) = ls ++ [chomp (l ++ ['\n'])] := by
  unfold lines
  rcases linesKept_concat_feed a with h | ⟨ls, l, h, hl, h'⟩
  · left
    rw [h, List.map_append]
    rfl
  · right
    refine ⟨ls.map chomp, l, ?_, ?_⟩
    · rw [h, List.map_append, List.map_singleton, chomp_of_not_mem hl]
    · rw [h', List.map_append, List.map_singleton]

/-- The first lines of a text, with their ends. -/
def firstLines (n : Nat) (t : List Char) : List Char := ((linesKept t).take n).flatten

theorem linesKept_firstLines (n : Nat) (t : List Char) :
    linesKept (firstLines n t) = (linesKept t).take n := by
  unfold firstLines
  induction t using lineInduction generalizing n with
  | last a ha =>
    by_cases hne : a = []
    · rw [hne]
      simp [linesKept]
    · rw [linesKept_of_not_mem ha hne]
      cases n with
      | zero => rfl
      | succ n => simpa using linesKept_of_not_mem ha hne
  | line a rest ha ih =>
    rw [linesKept_append ha]
    cases n with
    | zero => rfl
    | succ n =>
      rw [List.take_succ_cons, List.flatten_cons, List.append_assoc, List.singleton_append,
        linesKept_append ha, ih]

theorem lines_firstLines (n : Nat) (t : List Char) : lines (firstLines n t) = (lines t).take n := by
  unfold lines
  rw [linesKept_firstLines, List.map_take]

/-! ## Cutting -/

theorem splitFirst_append (ha : ∀ x ∈ a, p x = false) (hc : p c = true) :
    splitFirst p (a ++ c :: b) = some (a, b) := by
  induction a with
  | nil => simp [splitFirst, hc]
  | cons x a ih =>
    rw [List.cons_append, splitFirst, ha x (by simp), ih fun y hy => ha y (by simp [hy])]
    rfl

theorem splitFirst_eq_none_iff : splitFirst p t = none ↔ ∀ x ∈ t, p x = false := by
  induction t with
  | nil => simp [splitFirst]
  | cons x t ih =>
    rw [splitFirst]
    cases hx : p x with
    | true => simp [hx]
    | false => simp [hx, ih]

/-- The first cut is the one before which there is none. -/
theorem splitFirst_eq_some_iff :
    splitFirst p t = some (a, b) ↔ ∃ x, t = a ++ x :: b ∧ p x = true ∧ ∀ y ∈ a, p y = false := by
  constructor
  · intro h
    induction t generalizing a with
    | nil => cases h
    | cons x t ih =>
      rw [splitFirst] at h
      split at h
      · next hx =>
        cases h
        exact ⟨x, rfl, hx, by simp⟩
      · next hx =>
        obtain ⟨⟨a', b'⟩, hcut, h⟩ := Option.map_eq_some_iff.1 h
        cases h
        obtain ⟨y, rfl, hy, ha'⟩ := ih hcut
        exact ⟨y, rfl, hy, List.forall_mem_cons.2 ⟨by simpa using hx, ha'⟩⟩
  · rintro ⟨x, rfl, hx, ha⟩
    exact splitFirst_append ha hx

theorem splitFirst_char_eq_none_iff : splitFirst (· == c) t = none ↔ c ∉ t := by
  rw [splitFirst_eq_none_iff]
  constructor
  · exact fun h hc => by simpa using h c hc
  · exact fun h x hx => beq_eq_false_iff_ne.2 fun e => h (e ▸ hx)

theorem splitFirst_char_eq_some_iff :
    splitFirst (· == c) t = some (a, b) ↔ t = a ++ c :: b ∧ c ∉ a := by
  rw [splitFirst_eq_some_iff]
  constructor
  · rintro ⟨x, rfl, hx, ha⟩
    rw [beq_iff_eq.1 hx]
    exact ⟨rfl, splitFirst_char_eq_none_iff.1 (splitFirst_eq_none_iff.2 (beq_iff_eq.1 hx ▸ ha))⟩
  · rintro ⟨rfl, ha⟩
    exact ⟨c, rfl, beq_self_eq_true c, splitFirst_eq_none_iff.1 (splitFirst_char_eq_none_iff.2 ha)⟩

theorem splitLast_eq_none_iff : splitLast p t = none ↔ ∀ x ∈ t, p x = false := by
  induction t with
  | nil => simp [splitLast]
  | cons x t ih =>
    rw [splitLast]
    cases h : splitLast p t with
    | none =>
      rw [h] at ih
      have ht := ih.1 rfl
      cases hx : p x <;> simp_all
    | some ab =>
      rw [h] at ih
      have : ¬ ∀ x ∈ t, p x = false := fun ht => by cases ih.2 ht
      simp only [List.forall_mem_cons, this, and_false, iff_false]
      simp

/-- The last cut is the one behind which there is none. -/
theorem splitLast_eq_some_iff :
    splitLast p t = some (a, b) ↔ ∃ x, t = a ++ x :: b ∧ p x = true ∧ ∀ y ∈ b, p y = false := by
  induction t generalizing a with
  | nil => simp [splitLast]
  | cons x t ih =>
    rw [splitLast]
    cases h : splitLast p t with
    | some ab =>
      obtain ⟨a', b'⟩ := ab
      rw [h] at ih
      show some (x :: a', b') = some (a, b) ↔ _
      constructor
      · intro e
        cases e
        obtain ⟨y, rfl, hy⟩ := ih.1 rfl
        exact ⟨y, rfl, hy⟩
      · rintro ⟨y, e, hy, hb⟩
        cases a with
        | nil =>
          -- a cut at the front leaves no cut behind it
          cases e
          rw [splitLast_eq_none_iff.2 hb] at h
          cases h
        | cons z a =>
          obtain ⟨rfl, rfl⟩ := List.cons.inj e
          cases ih.2 ⟨y, rfl, hy, hb⟩
          rfl
    | none =>
      have hnone := splitLast_eq_none_iff.1 h
      show (if p x = true then some ([], t) else none) = some (a, b) ↔ _
      constructor
      · intro e
        split at e
        · next hx =>
          cases e
          exact ⟨x, rfl, hx, hnone⟩
        · cases e
      · rintro ⟨y, e, hy, hb⟩
        cases a with
        | nil =>
          cases e
          rw [if_pos hy]
        | cons z a =>
          obtain ⟨rfl, rfl⟩ := List.cons.inj e
          rw [hnone y (by simp)] at hy
          cases hy

theorem forall_of_mem_fields (h : a ∈ fields p t) : ∀ x ∈ a, p x = false := by
  induction t generalizing a with
  | nil =>
    rw [fields, List.mem_singleton] at h
    simp [h]
  | cons c t ih =>
    rw [fields] at h
    split at h
    · rcases List.mem_cons.1 h with rfl | h
      · exact List.forall_mem_nil _
      · exact ih h
    · next hc =>
      cases hf : fields p t with
      | nil => exact absurd hf (fields_ne_nil p t)
      | cons f fs =>
        rw [hf] at h ih
        rcases List.mem_cons.1 h with rfl | h
        · exact List.forall_mem_cons.2 ⟨by simpa using hc, ih List.mem_cons_self⟩
        · exact ih (List.mem_cons_of_mem f h)

end MessageHarvest.Text
