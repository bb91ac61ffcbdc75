import Mathlib.Data.List.DropRight
import Mathlib.Data.List.TakeWhile
import MessageHarvest.Proofs.Text.Lines

/-! # Cutting and trimming, in terms of the library

    * `exists_padding`, `trim_padded`: trimming removes the blanks around a
      text and nothing else.
    * `fields_join`, `join_fields`: pieces that are joined at a separator are
      the pieces that the text is cut into. -/

namespace MessageHarvest.Text

/-! ## Cutting -/

section Cutting

variable {sep : Char} {t a : List Char} {ts : List (List Char)}

theorem fields_eq_splitOnP (p : Char → Bool) (t : List Char) : fields p t = t.splitOnP p := by
  induction t with
  | nil => rfl
  | cons c t ih =>
    obtain ⟨f, fs, hfs⟩ := List.exists_cons_of_ne_nil (List.splitOnP_ne_nil p t)
    rw [fields, List.splitOnP_cons_eq_if_modifyHead, ih, hfs]
    rfl

theorem join_eq_intercalate (sep : List Char) (ts : List (List Char)) :
    join sep ts = sep.intercalate ts := by
  induction ts with
  | nil => rfl
  | cons t ts ih =>
    cases ts with
    | nil => simp [join]
    | cons u ts => rw [join, ih, List.intercalate_cons_cons]; simp

/-- Pieces without the separator come apart again. -/
theorem fields_join (h : ∀ t ∈ ts, sep ∉ t) (hne : ts ≠ []) :
    fields (· == sep) (join [sep] ts) = ts := by
  rw [fields_eq_splitOnP, join_eq_intercalate]
  exact List.splitOn_intercalate sep h hne

/-- The pieces of a text make it up again. -/
theorem join_fields (sep : Char) (t : List Char) : join [sep] (fields (· == sep) t) = t := by
  rw [fields_eq_splitOnP, join_eq_intercalate]
  exact List.intercalate_splitOn sep

theorem not_mem_of_mem_fields (h : a ∈ fields (· == sep) t) : sep ∉ a := by
  intro hsep
  simpa using forall_of_mem_fields h sep hsep

theorem dropEnd?_append (t e : List Char) : dropEnd? e (t ++ e) = some t := by
  rw [dropEnd?, List.reverse_append, dropStart?_append, Option.map_some, List.reverse_reverse]

end Cutting

/-! ## Trimming -/

section Trimming

/-- Text of blanks only. -/
def Blank (t : List Char) : Prop := ∀ c ∈ t, isBlank c = true

instance (t : List Char) : Decidable (Blank t) :=
  List.decidableBAll (fun c => isBlank c = true) t

variable {a b t : List Char}

theorem trimStart_blank_append (h : Blank a) : trimStart (a ++ t) = trimStart t :=
  List.dropWhile_append_of_pos h

theorem trimEnd_append_blank (h : Blank b) : trimEnd (t ++ b) = trimEnd t := by
  have hb : ∀ c ∈ b.reverse, isBlank c = true := fun c hc => h c (List.mem_reverse.1 hc)
  unfold trimEnd
  rw [List.reverse_append, List.dropWhile_append_of_pos hb]

/-- Blanks around a text make no difference once it is trimmed. -/
theorem trim_padded (ha : Blank a) (hb : Blank b) : trim (a ++ t ++ b) = trim t := by
  -- one blank at a time: if `t` is blank too, `trimStart` reaches into `b`
  have hend : ∀ b t, Blank b → trim (t ++ b) = trim t := by
    intro b
    induction b with
    | nil => intro t _; rw [List.append_nil]
    | cons c b ih =>
      intro t h
      rw [List.append_cons, ih _ fun d hd => h d (List.mem_cons_of_mem c hd),
        trim_concat_blank (h c List.mem_cons_self)]
  rw [hend b _ hb, trim, trimStart_blank_append ha, trim]

/-- Trimming takes blanks from the end. -/
theorem exists_trimEnd_append (t : List Char) : ∃ b, Blank b ∧ t = trimEnd t ++ b := by
  refine ⟨t.rtakeWhile isBlank, fun c hc => List.mem_rtakeWhile_imp hc, ?_⟩
  exact (List.rdropWhile_append_rtakeWhile ..).symm

/-- Trimming takes blanks from both sides. -/
theorem exists_padding (t : List Char) : ∃ a b, Blank a ∧ Blank b ∧ t = a ++ trim t ++ b := by
  obtain ⟨b, hb, hend⟩ := exists_trimEnd_append (trimStart t)
  refine ⟨t.takeWhile isBlank, b, fun c hc => List.mem_takeWhile_imp hc, hb, ?_⟩
  rw [List.append_assoc, trim, ← hend]
  exact (List.takeWhile_append_dropWhile ..).symm

/-- Text without blanks is trimmed already. -/
theorem trim_of_solid (h : ∀ c ∈ t, isBlank c = false) : trim t = t := by
  obtain ⟨a, b, ha, hb, ht⟩ := exists_padding t
  have hsolid : ∀ {u : List Char}, Blank u → (∀ c ∈ u, c ∈ t) → u = [] := by
    intro u hu hmem
    refine List.eq_nil_iff_forall_not_mem.2 fun c hc => ?_
    have hblank := hu c hc
    rw [h c (hmem c hc)] at hblank
    cases hblank
  have hnil : a = [] := hsolid ha fun c hc => by rw [ht]; simp [hc]
  have hnil' : b = [] := hsolid hb fun c hc => by rw [ht]; simp [hc]
  rw [hnil, hnil', List.nil_append, List.append_nil] at ht
  exact ht.symm

theorem trimEnd_trimEnd (t : List Char) : trimEnd (trimEnd t) = trimEnd t :=
  List.rdropWhile_idempotent ..

theorem trimEnd_eq_nil_iff : trimEnd t = [] ↔ Blank t := List.rdropWhile_eq_nil_iff ..

/-- A text has a character that is not blank if it still has one when it is trimmed. -/
theorem blank_trim_iff : Blank (trim t) ↔ Blank t := by
  constructor
  · intro h
    obtain ⟨a, b, ha, hb, ht⟩ := exists_padding t
    rw [ht]
    intro c hc
    simp only [List.mem_append] at hc
    rcases hc with (hc | hc) | hc
    · exact ha c hc
    · exact h c hc
    · exact hb c hc
  · exact fun h c hc => h c (mem_of_mem_trim hc)

theorem trim_eq_nil_iff : trim t = [] ↔ Blank t := by
  constructor
  · intro h
    rw [← blank_trim_iff, h]
    exact fun c hc => nomatch hc
  · intro h
    have hnil : Blank [] := fun c hc => nomatch hc
    simpa using trim_padded (t := []) h hnil

end Trimming

end MessageHarvest.Text
