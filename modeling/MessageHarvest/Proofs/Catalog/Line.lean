import MessageHarvest.Catalog.Entry
import MessageHarvest.Catalog.Render
import MessageHarvest.Proofs.Catalog.Reference
import MessageHarvest.Proofs.Message.Store

/-! # What a written line is read as

    Every line that is written is read as what it was written for: a comment,
    references, a string or a field. None of them has a line feed in it, so
    the lines of a written catalog come apart again. -/

namespace MessageHarvest.Catalog

/-! ## Quoted strings -/

theorem trim_quote (t : List Char) : Text.trim (quote t) = quote t :=
  Text.trim_between (by decide) (by decide)

@[simp] theorem unquote?_quote (t : List Char) : unquote? (quote t) = some t := by
  unfold unquote?
  rw [trim_quote, quote]
  simp

/-- Line feeds, carriage returns and tabs are written as letters behind a
    backslash. -/
theorem not_mem_escape {d : Char} (hd : d ∈ ['\n', '\r', '\t']) (t : List Char) :
    d ∉ escape t := by
  have hchar : ∀ c, d ∉ escapeChar c := by
    intro c
    unfold escapeChar
    grind
  intro hmem
  obtain ⟨c, -, hc⟩ := List.mem_flatMap.1 hmem
  exact hchar c hc

theorem not_mem_quote (t : List Char) : '\n' ∉ quote t := by
  have h : '\n' ∉ escape t := not_mem_escape (by decide) t
  simp [quote, h]

/-! ## Lines -/

namespace Line

theorem parse_quote (t : List Char) : parse (quote t) = .ok (.string t) := by
  have h := unquote?_quote t
  unfold parse
  rw [trim_quote]
  unfold quote at h ⊢
  simp [h]

/-- Whether a word has no blanks, and does not make a line a comment or a string. -/
def isWord : List Char → Bool
  | [] => false
  | c :: t => c != '#' && c != '"' && (c :: t).all fun d => !Text.isBlank d

/-- A keyword and a quoted text are a field. -/
theorem parse_fieldLine {keyword : String} {k : Keyword} (t : List Char)
    (hk : Keyword.ofWord? keyword.toList = some k) (hword : isWord keyword.toList = true) :
    parse (fieldLine keyword t) = .ok (.field k t) := by
  have hne : keyword.toList ≠ [] := by
    intro e
    rw [e] at hword
    cases hword
  obtain ⟨c, w, hw⟩ := List.exists_cons_of_ne_nil hne
  rw [hw] at hword hk
  have hsolid : ∀ d ∈ c :: w, Text.isBlank d = false := by
    intro d hd
    rw [isWord, Bool.and_eq_true, List.all_eq_true] at hword
    simpa using hword.2 d hd
  have hc₁ : c ≠ '#' := by rintro rfl; cases hword
  have hc₂ : c ≠ '"' := by rintro rfl; cases hword
  have htrim : Text.trim (c :: w ++ ' ' :: quote t) = c :: w ++ ' ' :: quote t := by
    have := Text.trim_between (t := w ++ ' ' :: '"' :: escape t) (hsolid c (by simp))
      (d := '"') (by decide)
    simpa [quote] using this
  have hcut : Text.splitFirst Text.isBlank (c :: w ++ ' ' :: quote t) = some (c :: w, quote t) :=
    Text.splitFirst_append hsolid (by decide)
  unfold parse fieldLine
  rw [hw, htrim]
  split
  · next e => cases e
  · next e => exact absurd (List.cons.inj e).1 hc₁
  · next e => exact absurd (List.cons.inj e).1 hc₁
  · next e => exact absurd (List.cons.inj e).1 hc₂
  · rw [hcut]
    simp [hk]

/-- An unmarked line is a comment once it has a mark. -/
theorem parse_comment {comment : String} {l : List Char} (h : l ∈ commentLines comment) :
    parse l = .ok .comment := by
  have hspace : ∀ t, parse ('#' :: ' ' :: t) = .ok .comment := by
    intro t
    obtain ⟨b, hb⟩ := Text.trimEnd_append_exists (' ' :: t)
    unfold parse
    rw [Text.trim_cons (by decide)]
    cases hu : Text.trimEnd (' ' :: t) with
    | nil => rfl
    | cons c u =>
      rw [hu] at hb
      cases hb
      rfl
  unfold commentLines at h
  split at h
  · rw [List.mem_singleton.1 h]
    rfl
  · obtain ⟨t, -, rfl⟩ := List.mem_map.1 h
    split
    · rfl
    · exact hspace t

/-- The occurrences of a reference line are read again. -/
theorem parse_referenceLine {os : List Occurrence} (h : os ≠ []) :
    parse (referenceLine os) = .ok (.references (lineOccurrences (referenceLine os))) := by
  -- the last character is a digit, so there is nothing to trim
  obtain ⟨a, c, ha, hdigit⟩ := exists_digit_of_ne_nil h
  have hc : Text.isBlank c = false := Text.not_isBlank_of_isDigit hdigit
  unfold parse lineOccurrences referenceLine referenceMark
  rw [ha, List.cons_append, List.cons_append, List.nil_append, ← List.cons_append,
    Text.trim_between (by decide) hc]
  rfl

/-- Ending a line and taking the end off again does not change what it is. -/
@[simp] theorem parse_chomp (l : List Char) : parse (Text.chomp (l ++ ['\n'])) = parse l := by
  unfold parse
  rw [Text.trim_chomp]

/-- The occurrences of a line. -/
def occurrences : Line → List Occurrence
  | .references os => os
  | _ => []

/-- The occurrences that are read from a line are representable. -/
theorem representable_of_parse {raw : List Char} {l : Line} (h : parse raw = .ok l)
    (hraw : '\n' ∉ raw) : ∀ o ∈ l.occurrences, Representable o := by
  intro o ho
  unfold parse at h
  split at h
  · cases h; cases ho
  · next t e =>
    cases h
    refine representable_of_mem_parseReferences (fun ht => hraw (Text.mem_of_mem_trim ?_)) ho
    rw [e]
    simp [ht]
  · cases h; cases ho
  · split at h <;> cases h
    cases ho
  · split at h
    · cases h
    · split at h
      · cases h
      · split at h <;> cases h
        cases ho

end Line

/-! ## Written lines have no line feeds -/

theorem not_mem_commentLines {comment : String} {l : List Char} (h : l ∈ commentLines comment) :
    '\n' ∉ l := by
  unfold commentLines at h
  split at h
  · rw [List.mem_singleton.1 h]
    decide
  · obtain ⟨t, ht, rfl⟩ := List.mem_map.1 h
    have hlf := Text.not_mem_of_mem_lines ht
    split
    · decide
    · simp [hlf]

theorem not_mem_referenceLines {os : List Occurrence} (h : ∀ o ∈ os, '\n' ∉ o.path.toList)
    {l : List Char} (hl : l ∈ referenceLines os) : '\n' ∉ l := by
  obtain ⟨groups, hlines, hflat, -⟩ := referenceLines_filled os
  rw [hlines] at hl
  obtain ⟨g, hg, rfl⟩ := List.mem_map.1 hl
  unfold referenceLine referenceMark
  intro hmem
  rcases List.mem_append.1 hmem with hmem | hmem
  · exact absurd hmem (by decide)
  · obtain ⟨o, ho, hmem⟩ := List.mem_flatMap.1 hmem
    have hpath := h o (hflat ▸ List.mem_flatten.2 ⟨g, hg, ho⟩)
    have hdigits : '\n' ∉ Nat.toDigits 10 o.line := fun hd =>
      absurd ((Text.isDigits_iff.1 (Text.isDigits_toDigits o.line)).2 _ hd) (by decide)
    simp [reference_eq, hpath, hdigits] at hmem

theorem not_mem_fieldLine {keyword : String} (h : '\n' ∉ keyword.toList) (t : List Char) :
    '\n' ∉ fieldLine keyword t := by
  simp [fieldLine, h, not_mem_quote]

theorem not_mem_fieldLines {keyword : String} (h : '\n' ∉ keyword.toList) {t l : List Char}
    (hl : l ∈ fieldLines keyword t) : '\n' ∉ l := by
  unfold fieldLines at hl
  split at hl
  · rcases List.mem_cons.1 hl with rfl | hl
    · exact not_mem_fieldLine h []
    · obtain ⟨l', -, rfl⟩ := List.mem_map.1 hl
      exact not_mem_quote l'
  · rw [List.mem_singleton.1 hl]
    exact not_mem_fieldLine h t

/-- Only a path can bring a line feed into a line of a message. -/
theorem not_mem_messageLines {m : Message} (h : ∀ o ∈ m.occurrences.toList, '\n' ∉ o.path.toList)
    {l : List Char} (hl : l ∈ messageLines m) : '\n' ∉ l := by
  unfold messageLines at hl
  rcases List.mem_append.1 hl with hl | hl
  · rcases List.mem_append.1 hl with hl | hl
    · exact not_mem_referenceLines h hl
    · exact not_mem_fieldLines (by decide) hl
  · split at hl
    · rcases List.mem_append.1 hl with hl | hl
      · exact not_mem_fieldLines (by decide) hl
      · have : l = fieldLine "msgstr[0]" [] ∨ l = fieldLine "msgstr[1]" [] := by simpa using hl
        rcases this with rfl | rfl <;> exact not_mem_fieldLine (by decide) []
    · rw [List.mem_singleton.1 hl]
      exact not_mem_fieldLine (by decide) []

theorem not_mem_headerLines {h : Header} {charset : String} {l : List Char}
    (hl : l ∈ headerLines h charset) : '\n' ∉ l := by
  unfold headerLines at hl
  rcases List.mem_cons.1 hl with rfl | hl
  · exact not_mem_fieldLine (by decide) []
  · rcases List.mem_cons.1 hl with rfl | hl
    · exact not_mem_fieldLine (by decide) []
    · obtain ⟨f, -, rfl⟩ := List.mem_map.1 hl
      exact not_mem_quote _

theorem not_mem_catalogLines {s : Store} (h : Header) (charset : String)
    (hs : ∀ m ∈ s.toList, ∀ o ∈ m.occurrences.toList, '\n' ∉ o.path.toList) {l : List Char}
    (hl : l ∈ catalogLines s h charset) : '\n' ∉ l := by
  unfold catalogLines at hl
  rcases List.mem_append.1 hl with hl | hl
  · rcases List.mem_append.1 hl with hl | hl
    · obtain ⟨c, -, hl⟩ := List.mem_flatMap.1 hl
      exact not_mem_commentLines hl
    · exact not_mem_headerLines hl
  · obtain ⟨m, hm, hl⟩ := List.mem_flatMap.1 hl
    rcases List.mem_cons.1 hl with rfl | hl
    · simp
    · exact not_mem_messageLines (hs m (Store.mem_sorted.1 hm)) hl

end MessageHarvest.Catalog
