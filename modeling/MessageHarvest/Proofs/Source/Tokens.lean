import Mathlib.Data.List.TakeDrop
import Mathlib.Data.List.TakeWhile
import MessageHarvest.Source.Tree
import MessageHarvest.Text.Blank

/-! # The tokens of a source

    What is between two tokens is blanks and comments, and a word has only the
    characters of identifiers. So text without its blanks is made up of its
    tokens and of the comments between them:

    * `sound_ofSource`: every token of a source is sound.
    * `compact_text_iff`: without its blanks, a text is its tokens in a row
      exactly if there is no comment between them. -/

namespace MessageHarvest

/-! ## Blanks and identifiers -/

namespace Text

/-- The code points of the blanks. -/
def blanks : List Nat :=
  List.range' 9 5 ++ [0x20, 0x85, 0xA0, 0x1680] ++ List.range' 0x2000 11 ++
    [0x2028, 0x2029, 0x202F, 0x205F, 0x3000]

theorem mem_blanks {c : Char} (h : isBlank c = true) : c.toNat ∈ blanks := by
  simpa [isBlank, blanks, List.mem_range'_1, Nat.lt_succ_iff, or_assoc] using h

/-- The characters of identifiers. -/
def isIdentifierChar (c : Char) : Bool := isIdentifierStart c || isIdentifierPart c

theorem isBlank_of_isIdentifierChar {c : Char} (h : isIdentifierChar c = true) :
    isBlank c = false := by
  have hblanks : ∀ n ∈ blanks, isIdentifierChar (Char.ofNat n) = false := by decide +kernel
  rw [Bool.eq_false_iff]
  intro hblank
  have hnone := hblanks c.toNat (mem_blanks hblank)
  rw [Char.ofNat_toNat, h] at hnone
  cases hnone

/-- The characters of names: those of identifiers, and what stands between them. -/
def isNameChar (c : Char) : Bool := isIdentifierChar c || c == '.' || c == '*'

theorem compact_of_isNameChar {t : List Char} (h : ∀ c ∈ t, isNameChar c = true) :
    compact t = t := by
  refine List.filter_eq_self.2 fun c hc => ?_
  have hname := h c hc
  simp only [isNameChar, Bool.or_eq_true, beq_iff_eq] at hname
  rcases hname with (h | rfl) | rfl
  · simp [isBlank_of_isIdentifierChar h]
  · rfl
  · rfl

end Text

/-! ## Blanks and comments before tokens -/

namespace Token

theorem isBlank_of_isSpace {c : Char} (h : isSpace c = true) : Text.isBlank c = true := by
  simp only [isSpace, Bool.or_eq_true, Bool.and_eq_true, decide_eq_true_eq] at h
  simp only [Text.isBlank, Bool.or_eq_true, Bool.and_eq_true, decide_eq_true_eq, beq_iff_eq]
  rcases h with rfl | h
  · decide
  · omega

theorem slash_mem_comment {t c r : List Char} (h : comment? t = some (c, r)) : '/' ∈ c := by
  unfold comment? at h
  split at h
  · cases h
    simp
  · obtain ⟨p, -, hp⟩ := Option.map_eq_some_iff.1 h
    cases hp
    simp
  · cases h

/-- Without a comment there are only blanks before a token. -/
theorem isBlank_of_leading {n : Nat} {t : List Char} (h : '/' ∉ (leading n t).1) :
    ∀ c ∈ (leading n t).1, Text.isBlank c = true := by
  cases n with
  | zero => simp [leading]
  | succ n =>
    rw [leading, List.span_eq_takeWhile_dropWhile] at h ⊢
    dsimp only at h ⊢
    split at h
    · next c r hc =>
      refine absurd ?_ h
      simp [slash_mem_comment hc]
    · intro c hmem
      exact isBlank_of_isSpace (List.mem_takeWhile_imp hmem)

/-! ## Words -/

theorem mem_of_longestOf {t : List Char} {ps : List (Kind × Text.Pattern)} {k : Kind} {n : Nat}
    (h : longestOf t ps = some (k, n)) : ∃ p ∈ ps, p.1 = k := by
  induction ps generalizing n with
  | nil => cases h
  | cons p ps ih =>
    have hrest : ∀ {m}, longestOf t ps = some (k, m) → ∃ q ∈ p :: ps, q.1 = k := by
      intro m hm
      obtain ⟨q, hq, hk⟩ := ih hm
      exact ⟨q, List.mem_cons_of_mem p hq, hk⟩
    unfold longestOf at h
    split at h
    · next hbest =>
      split at h
      · cases h
        exact hrest hbest
      · cases h
        exact ⟨p, List.mem_cons_self, rfl⟩
    · cases h
      exact ⟨p, List.mem_cons_self, rfl⟩
    · exact hrest h

/-- A word is made of the characters of identifiers. -/
theorem word_of_first {es : List Embedding} {t : List Char} (h : (first es t).1 = .word) :
    (first es t).2.1 ≠ [] ∧ ∀ c ∈ (first es t).2.1, Text.isIdentifierChar c = true := by
  have hpiece : ∀ {a block isStart outer p}, (ofPiece a block isStart outer p).1 ≠ .word := by
    intro a block isStart outer ⟨b, e, r⟩
    cases e <;> cases isStart <;> simp [ofPiece]
  unfold first at h ⊢
  split at h
  · cases h
  · exact absurd h hpiece
  · exact absurd h hpiece
  · split at h <;> cases h
  · next c r _ _ _ =>
    dsimp only at h ⊢
    split at h
    · next hstart =>
      simp only [hstart, if_true, List.span_eq_takeWhile_dropWhile]
      refine ⟨List.cons_ne_nil _ _, List.forall_mem_cons.2 ⟨?_, fun c hc => ?_⟩⟩
      · exact Bool.or_eq_true_iff.2 (.inl hstart)
      · exact Bool.or_eq_true_iff.2 (.inr (List.mem_takeWhile_imp hc))
    · exfalso
      split at h
      · next k n hk =>
        obtain ⟨p, hp, rfl⟩ := mem_of_longestOf hk
        have hkinds : ∀ p ∈ numberPatterns, p.1 ≠ .word := by simp [numberPatterns]
        exact hkinds p hp h
      · repeat' split at h
        all_goals first | cases h | exact absurd h hpiece

/-- A token as it stands in a source: a word is an identifier, and before a
    token there are only blanks if there is no comment. -/
structure Sound (t : Token) : Prop where
  word : t.kind = .word → t.text ≠ [] ∧ ∀ c ∈ t.text, Text.isIdentifierChar c = true
  lead : t.kind ≠ .finish → '/' ∉ t.lead → ∀ c ∈ t.lead, Text.isBlank c = true

theorem sound_scan {n line index : Nat} {es : List Embedding} {t : List Char} :
    ∀ tok ∈ scan n line index es t, tok.Sound := by
  induction n generalizing line index es t with
  | zero =>
    refine List.forall_mem_singleton.2 ⟨?_, ?_⟩
    · intro h
      cases h
    · intro h
      exact absurd rfl h
  | succ n ih =>
    have hfirst : ∀ {line index}, Sound ⟨(first es (leading (n + 1) t).2).1, (leading (n + 1) t).1,
        (first es (leading (n + 1) t).2).2.1, line, index⟩ :=
      ⟨word_of_first, fun _ h => isBlank_of_leading h⟩
    rw [scan]
    dsimp only
    split
    · exact List.forall_mem_singleton.2 hfirst
    · exact List.forall_mem_cons.2 ⟨hfirst, ih⟩

/-- Every token of a source is sound. -/
theorem sound_ofSource (s : String) : ∀ t ∈ ofSource s, t.Sound := sound_scan

/-- The tokens of a source whose characters are known. -/
theorem ofSource_ofList (t : List Char) : ofSource (String.ofList t) =
    scan ((dropMark t).length + 1) 1 0 [] (dropMark t) := by
  unfold ofSource
  rw [String.toList_ofList]

/-! ## Text without blanks -/

/-- The texts of some tokens in a row. -/
def spelling (ts : List Token) : List Char := ts.flatMap Token.text

theorem spelling_append (ts us : List Token) :
    spelling (ts ++ us) = spelling ts ++ spelling us := List.flatMap_append ..

/-- There is no comment before the tokens. -/
def Plain (ts : List Token) : Prop := ∀ t ∈ ts, '/' ∉ t.lead

instance (ts : List Token) : Decidable (Plain ts) := inferInstanceAs (Decidable (∀ t ∈ ts, _))

theorem compact_lead {t : Token} (h : t.Sound) (hk : t.kind ≠ .finish) (hplain : '/' ∉ t.lead) :
    Text.compact t.lead = [] := by
  refine List.filter_eq_nil_iff.2 fun c hc => ?_
  simp [h.lead hk hplain c hc]

/-- Text without its blanks keeps the comments. -/
theorem slash_mem_compact_spell {ts : List Token} (h : ¬ Plain ts) :
    '/' ∈ Text.compact (Tree.spell ts) := by
  simp only [Plain, not_forall, not_not] at h
  obtain ⟨t, ht, hslash⟩ := h
  refine List.mem_filter.2 ⟨List.mem_flatMap.2 ⟨t, ht, ?_⟩, rfl⟩
  exact List.mem_append_left _ hslash

/-- A part of a name: a word, a dot or an asterisk. -/
def IsPart (t : Token) : Prop :=
  t.kind = .word ∨ (t.kind = .symbol ∧ (t.text = ['.'] ∨ t.text = ['*']))

theorem IsPart.ne_finish {t : Token} (h : t.IsPart) : t.kind ≠ .finish := by
  rcases h with h | ⟨h, -⟩ <;> simp [h]

theorem Sound.isNameChar {t : Token} (h : t.Sound) (hpart : t.IsPart) :
    ∀ c ∈ t.text, Text.isNameChar c = true := by
  intro c hc
  rcases hpart with hword | ⟨-, htext | htext⟩
  · simp [Text.isNameChar, (h.word hword).2 c hc]
  · rw [htext, List.mem_singleton] at hc
    simp [Text.isNameChar, hc]
  · rw [htext, List.mem_singleton] at hc
    simp [Text.isNameChar, hc]

theorem isNameChar_spelling {ts : List Token} (h : ∀ t ∈ ts, t.Sound ∧ t.IsPart) :
    ∀ c ∈ spelling ts, Text.isNameChar c = true := by
  intro c hc
  obtain ⟨t, ht, hc⟩ := List.mem_flatMap.1 hc
  exact (h t ht).1.isNameChar (h t ht).2 c hc

theorem slash_not_mem_spelling {ts : List Token} (h : ∀ t ∈ ts, t.Sound ∧ t.IsPart) :
    '/' ∉ spelling ts := fun hslash =>
  absurd (isNameChar_spelling h '/' hslash) (by decide +kernel)

/-- Without comments, the text of a name without its blanks is its tokens in a row. -/
theorem compact_spell {ts : List Token} (h : ∀ t ∈ ts, t.Sound ∧ t.IsPart)
    (hplain : Plain ts) : Text.compact (Tree.spell ts) = spelling ts := by
  induction ts with
  | nil => rfl
  | cons t ts ih =>
    obtain ⟨⟨hsound, hpart⟩, hts⟩ := List.forall_mem_cons.1 h
    obtain ⟨hlead, hleads⟩ := List.forall_mem_cons.1 hplain
    rw [spelling, List.flatMap_cons, ← spelling, ← ih hts hleads, Tree.spell, List.flatMap_cons,
      Text.compact_append, Text.compact_append, compact_lead hsound hpart.ne_finish hlead,
      Text.compact_of_isNameChar (hsound.isNameChar hpart)]
    rfl

/-- Without its blanks, a dotted name is its tokens in a row exactly if there is
    no comment between them. -/
theorem compact_text_iff {t : Token} {ts : List Token} (h : ∀ u ∈ t :: ts, u.Sound ∧ u.IsPart) :
    Text.compact (t.text ++ Tree.spell ts) = spelling (t :: ts) ↔ Plain ts := by
  obtain ⟨⟨hsound, hpart⟩, hts⟩ := List.forall_mem_cons.1 h
  rw [Text.compact_append, Text.compact_of_isNameChar (hsound.isNameChar hpart)]
  constructor
  · intro heq
    by_contra hplain
    refine slash_not_mem_spelling h ?_
    rw [← heq]
    exact List.mem_append_right _ (slash_mem_compact_spell hplain)
  · intro hplain
    rw [compact_spell hts hplain]
    rfl

end Token

end MessageHarvest
