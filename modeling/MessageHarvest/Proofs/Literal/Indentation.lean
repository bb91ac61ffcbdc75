import Mathlib.Data.List.Forall2
import MessageHarvest.Proofs.Text.Trimming
import MessageHarvest.Source.Literal

/-! # The layout of text blocks

    A text block is lines behind an opening line; all but the last one end with
    a line feed, which may stand behind a carriage return. Its value depends on
    the lines only up to the blanks at their ends and up to the indentation that
    they share.

    * `stripIndent_of_lines`: what is made of the lines, in one equation. The
      lines that count for the indentation are those that are not blank and the
      last one.
    * `stripIndent_shifted`: the invariant of reformatting. If every line gets
      the same margin, and blanks at its end unless it is the last one, then the
      shared indentation grows by the margin and the result is the same.
    * `decodeString_reformatted`: so the text of a block is the same when it is
      indented, padded or given other line ends. -/

namespace MessageHarvest

namespace Literal

open Text (Blank)

variable {l l' w b : List Char} {n : Nat}

/-! ## Lines -/

theorem isBlankLine_iff : isBlankLine l = true ↔ Blank l := by
  rw [isBlankLine, List.isEmpty_iff, Text.trim_eq_nil_iff]

theorem trimEnd_append_dropReturns (w l : List Char) :
    Text.trimEnd (w ++ dropReturns l) = Text.trimEnd (w ++ l) := by
  have hreturns : Blank (l.rtakeWhile (· == '\r')) := by
    intro c hc
    have hreturn : (c == '\r') = true := List.mem_rtakeWhile_imp (p := (· == '\r')) hc
    rw [beq_iff_eq.1 hreturn]
    rfl
  have hl : dropReturns l ++ l.rtakeWhile (· == '\r') = l := List.rdropWhile_append_rtakeWhile ..
  rw [← Text.trimEnd_append_blank hreturns, List.append_assoc, hl]

theorem trimEnd_dropReturns (l : List Char) : Text.trimEnd (dropReturns l) = Text.trimEnd l :=
  trimEnd_append_dropReturns [] l

theorem dropReturns_of_not_mem (h : '\r' ∉ l) : dropReturns l = l := by
  refine List.rdropWhile_eq_self_iff.2 fun hne hreturn => h ?_
  rw [← beq_iff_eq.1 hreturn]
  exact List.getLast_mem hne

theorem dropReturns_append (h : '\r' ∉ w) (l : List Char) :
    dropReturns (w ++ l) = w ++ dropReturns l := by
  -- carriage returns are dropped from the end, so the induction is from there
  induction l using List.reverseRecOn with
  | nil =>
    rw [List.append_nil, dropReturns_of_not_mem h]
    exact (List.append_nil w).symm
  | append_singleton l c ih =>
    unfold dropReturns at ih ⊢
    by_cases hc : c = '\r'
    · simpa [hc] using ih
    · simp [hc]

theorem dropReturns_concat (l : List Char) : dropReturns (l ++ ['\r']) = dropReturns l := by
  simp [dropReturns]

/-- Blanks at the end of a line do not matter to what is kept of it. -/
theorem stripLine_congr (h : Text.trimEnd l = Text.trimEnd l') :
    stripLine n l = stripLine n l' := by
  have hstrip : ∀ l, stripLine n l = stripLine n (Text.trimEnd l) := by
    intro l
    obtain ⟨b, hb, hl⟩ := Text.exists_trimEnd_append l
    have hdrop : Blank (b.drop (n - (Text.trimEnd l).length)) :=
      fun c hc => hb c (List.mem_of_mem_drop hc)
    unfold stripLine
    rw [hl, List.drop_append, ← hl, Text.trimEnd_append_blank hdrop]
  rw [hstrip l, h, ← hstrip l']

/-- Blanks at the end of a line do not matter to whether it is blank. -/
theorem isBlankLine_congr (h : Text.trimEnd l = Text.trimEnd l') :
    isBlankLine l = isBlankLine l' := by
  have hiff : isBlankLine l = true ↔ isBlankLine l' = true := by
    rw [isBlankLine_iff, isBlankLine_iff, ← Text.trimEnd_eq_nil_iff, ← Text.trimEnd_eq_nil_iff, h]
  exact Bool.eq_iff_iff.2 hiff

/-- Blanks at the end of a line that is not blank do not matter to its indentation. -/
theorem indentation_congr (h : Text.trimEnd l = Text.trimEnd l') (hl : isBlankLine l = false) :
    indentation l = indentation l' := by
  have hindent : ∀ l, isBlankLine l = false → indentation l = indentation (Text.trimEnd l) := by
    intro l hl
    obtain ⟨b, -, hlb⟩ := Text.exists_trimEnd_append l
    have hsolid : ¬ Blank (Text.trimEnd l) := by
      rw [← isBlankLine_iff, isBlankLine_congr (Text.trimEnd_trimEnd l), hl]
      exact Bool.false_ne_true
    -- what is left after trimming is no indentation all through
    have hstops : ((Text.trimEnd l).takeWhile Text.isBlank).length ≠ (Text.trimEnd l).length := by
      intro hall
      exact hsolid (List.takeWhile_eq_self_iff.1 ((List.takeWhile_prefix _).eq_of_length hall))
    unfold indentation
    rw [hlb, List.takeWhile_append, if_neg hstops, ← hlb]
  rw [hindent l hl, h, ← hindent l' (by rw [← isBlankLine_congr h, hl])]

theorem indentation_append (h : Blank w) (l : List Char) :
    indentation (w ++ l) = w.length + indentation l := by
  unfold indentation
  rw [List.takeWhile_append_of_pos h, List.length_append]

theorem stripLine_append (w l : List Char) (n : Nat) :
    stripLine (w.length + n) (w ++ l) = stripLine n l := by
  unfold stripLine
  rw [List.drop_append, List.drop_eq_nil_of_le (Nat.le_add_right ..), List.nil_append,
    Nat.add_sub_cancel_left]

/-! ## The shared indentation -/

theorem least_cons {m : Nat} {ns : List Nat} (h : ns ≠ []) :
    least (m :: ns) = min m (least ns) := by
  cases ns with
  | nil => exact absurd rfl h
  | cons n ns => rfl

theorem least_map_add (k : Nat) {ns : List Nat} (h : ns ≠ []) :
    least (ns.map (k + ·)) = k + least ns := by
  induction ns with
  | nil => exact absurd rfl h
  | cons n ns ih =>
    by_cases hns : ns = []
    · rw [hns]
      rfl
    · rw [List.map_cons, least_cons (by simpa using hns), ih hns, least_cons hns,
        Nat.add_min_add_left]

/-- The lines that count for the indentation: those that are not blank, and the
    last one. -/
def counted (rows : List (List Char)) (last : List Char) : List (List Char) :=
  rows.filter (fun l => !isBlankLine l) ++ [last]

/-- The indentation that the lines of a block share. -/
def shared (rows : List (List Char)) (last : List Char) : Nat :=
  least ((counted rows last).map indentation)

/-- What is made of the lines of a block: each loses the shared indentation, and
    a last line that is blank leaves only a line feed. -/
theorem stripIndent_of_lines {block last : List Char} {rows : List (List Char)}
    (h : blockLines block = rows ++ [last]) :
    stripIndent block =
      if isBlankLine last then Text.join ['\n'] (rows.map (stripLine (shared rows last))) ++ ['\n']
      else Text.join ['\n'] ((rows ++ [last]).map (stripLine (shared rows last))) := by
  have hlast : (rows ++ [last]).getLast?.getD [] = last := by simp
  have hcounted : (rows ++ [last]).filter (fun l => !isBlankLine l) ++
      (if isBlankLine last then [last] else []) = counted rows last := by
    cases hblank : isBlankLine last <;> simp [counted, hblank]
  unfold stripIndent
  simp only [h, hlast, hcounted, List.map_append, List.map_singleton, List.dropLast_concat]
  rfl

/-! ## Reformatting lines -/

/-- A line with a margin in front of it, up to the blanks at its end. -/
def Shifted (w l l' : List Char) : Prop := Text.trimEnd l' = Text.trimEnd (w ++ l)

theorem Shifted.isBlankLine (hw : Blank w) (h : Shifted w l l') :
    isBlankLine l' = isBlankLine l := by
  have hiff : Literal.isBlankLine (w ++ l) = true ↔ Literal.isBlankLine l = true := by
    rw [isBlankLine_iff, isBlankLine_iff, Blank, List.forall_mem_append]
    exact and_iff_right hw
  rw [isBlankLine_congr h, Bool.eq_iff_iff.2 hiff]

theorem Shifted.indentation (hw : Blank w) (h : Shifted w l l')
    (hl : Literal.isBlankLine l = false) : indentation l' = w.length + indentation l := by
  rw [indentation_congr h (by rw [h.isBlankLine hw, hl]), indentation_append hw]

theorem Shifted.stripLine (h : Shifted w l l') : stripLine (w.length + n) l' = stripLine n l := by
  rw [stripLine_congr h, stripLine_append]

/-- A margin in front of all lines is a margin in front of the shared indentation. -/
theorem shared_shifted {rows rows' : List (List Char)} (hw : Blank w)
    (h : List.Forall₂ (Shifted w) rows rows') (last : List Char) :
    shared rows' (w ++ last) = w.length + shared rows last := by
  have hcounted : (counted rows' (w ++ last)).map indentation =
      ((counted rows last).map indentation).map (w.length + ·) := by
    unfold counted
    induction h with
    | nil => simp [indentation_append hw]
    | @cons l l' rows rows' hl hrows ih =>
      -- a line is counted on both sides or on none
      cases hblank : isBlankLine l with
      | true => simpa [hl.isBlankLine hw, hblank] using ih
      | false => simpa [hl.isBlankLine hw, hblank, hl.indentation hw hblank] using ih
  unfold shared
  rw [hcounted, least_map_add]
  simp [counted]

/-- Lines that get the same margin, and blanks at their ends unless they are the
    last one, give the same text. -/
theorem stripIndent_shifted {block block' last : List Char} {rows rows' : List (List Char)}
    (hw : Blank w) (h : blockLines block = rows ++ [last])
    (h' : blockLines block' = rows' ++ [w ++ last]) (hrows : List.Forall₂ (Shifted w) rows rows') :
    stripIndent block' = stripIndent block := by
  have hlast : Shifted w last (w ++ last) := rfl
  have hstrip : rows'.map (stripLine (w.length + shared rows last)) =
      rows.map (stripLine (shared rows last)) := by
    -- the indentation is that of the whole block, so it is fixed before the induction
    generalize shared rows last = n
    clear h h'
    induction hrows with
    | nil => rfl
    | cons hl _ ih => rw [List.map_cons, List.map_cons, hl.stripLine, ih]
  rw [stripIndent_of_lines h, stripIndent_of_lines h', hlast.isBlankLine hw,
    shared_shifted hw hrows, List.map_append, List.map_append, hstrip, List.map_singleton,
    List.map_singleton, hlast.stripLine]

/-! ## Text blocks -/

/-- A line with its line feed, which may stand behind a carriage return. -/
structure Row where
  text : List Char
  crlf : Bool
  no_feed : '\n' ∉ text

namespace Row

/-- What stands in front of the line feed. -/
def before (r : Row) : List Char := r.text ++ if r.crlf then ['\r'] else []

/-- How a line is written. -/
def spelling (r : Row) : List Char := r.before ++ ['\n']

theorem not_mem_before (r : Row) : '\n' ∉ r.before := by
  have hreturn : '\n' ∉ (if r.crlf then ['\r'] else []) := by cases r.crlf <;> decide
  simp only [before, List.mem_append, not_or]
  exact ⟨r.no_feed, hreturn⟩

theorem dropReturns_before (r : Row) : dropReturns r.before = dropReturns r.text := by
  unfold before
  cases r.crlf with
  | true => exact dropReturns_concat r.text
  | false => exact congrArg dropReturns (List.append_nil r.text)

end Row

/-- A text block by its lines; the closing delimiter stands on the last one. -/
structure TextBlock where
  opening : Row
  rows : List Row
  last : List Char
  no_feed : '\n' ∉ last

namespace TextBlock

/-- What stands between the delimiters. -/
def inner (b : TextBlock) : List Char :=
  b.opening.spelling ++ (b.rows.flatMap Row.spelling ++ b.last)

/-- How a text block is written. -/
def raw (b : TextBlock) : String := String.ofList (blockQuote ++ (b.inner ++ blockQuote))

theorem stringBody_raw (b : TextBlock) : stringBody b.raw.toList = stripIndent b.inner := by
  rw [raw, String.toList_ofList, stringBody, Text.dropStart?_append]
  dsimp only
  rw [Text.dropEnd?_append]
  rfl

/-- The lines of what is behind the opening line. -/
theorem splitOn_rows (rows : List Row) {last : List Char} (h : '\n' ∉ last) :
    (rows.flatMap Row.spelling ++ last).splitOn '\n' = rows.map Row.before ++ [last] := by
  have hplain : ∀ {l : List Char}, '\n' ∉ l → ∀ c ∈ l, (c == '\n') = false := by
    intro l hl c hc
    rw [beq_eq_false_iff_ne]
    rintro rfl
    exact hl hc
  induction rows with
  | nil => exact List.splitOnP_eq_singleton (hplain h)
  | cons r rows ih =>
    rw [List.flatMap_cons, Row.spelling, List.append_assoc, List.append_assoc,
      List.singleton_append, List.splitOn_eq_splitOnP,
      List.splitOnP_append_cons_of_forall_mem (hplain r.not_mem_before) _ (beq_self_eq_true _),
      ← List.splitOn_eq_splitOnP, ih, List.map_cons, List.cons_append]

theorem blockContent_inner (b : TextBlock) :
    blockContent b.inner = b.rows.flatMap Row.spelling ++ b.last := by
  have hsplit : Text.splitFirst (· == '\n') b.inner =
      some (b.opening.before, b.rows.flatMap Row.spelling ++ b.last) := by
    unfold inner Row.spelling
    rw [List.append_assoc]
    refine Text.splitFirst_append ?_ (beq_self_eq_true _)
    intro c hc
    rw [beq_eq_false_iff_ne]
    rintro rfl
    exact b.opening.not_mem_before hc
  rw [blockContent, hsplit]

/-- The lines of a block have lost their carriage returns. -/
theorem blockLines_inner (b : TextBlock) :
    blockLines b.inner = b.rows.map (fun r => dropReturns r.text) ++ [dropReturns b.last] := by
  have hrows : (b.rows.map Row.before).map dropReturns =
      b.rows.map fun r => dropReturns r.text := by
    rw [List.map_map]
    exact List.map_congr_left fun r _ => r.dropReturns_before
  unfold blockLines
  rw [blockContent_inner, Text.fields_eq_splitOnP, ← List.splitOn_eq_splitOnP,
    splitOn_rows b.rows b.no_feed, List.map_append, hrows, List.map_singleton]

/-- Every text with a line feed in it is the inside of a text block. -/
theorem exists_inner {t : List Char} (h : '\n' ∈ t) : ∃ b : TextBlock, b.inner = t := by
  have hrows : ∀ t : List Char, ∃ (rows : List Row) (last : List Char),
      '\n' ∉ last ∧ rows.flatMap Row.spelling ++ last = t := by
    intro t
    induction t using Text.lineInduction with
    | last a ha => exact ⟨[], a, ha, rfl⟩
    | line a t ha ih =>
      obtain ⟨rows, last, hlast, rfl⟩ := ih
      exact ⟨⟨a, false, ha⟩ :: rows, last, hlast, by simp [Row.spelling, Row.before]⟩
  obtain ⟨a, rest, rfl, ha⟩ := List.eq_append_cons_of_mem h
  obtain ⟨rows, last, hlast, rfl⟩ := hrows rest
  exact ⟨⟨⟨a, false, ha⟩, rows, last, hlast⟩, by simp [inner, Row.spelling, Row.before]⟩

end TextBlock

/-! ## Reformatting text blocks -/

/-- Text of spaces and tabs only. -/
def Spacing (t : List Char) : Prop := ∀ c ∈ t, c = ' ' ∨ c = '\t'

instance (t : List Char) : Decidable (Spacing t) := List.decidableBAll _ t

theorem Spacing.blank (h : Spacing w) : Blank w := by
  intro c hc
  rcases h c hc with rfl | rfl
  · rfl
  · rfl

/-- A line feed stays or becomes a carriage return and a line feed. -/
def Row.EndsAlike (r r' : Row) : Prop := r.crlf = true → r'.crlf = true

/-- A line gets a margin in front, spaces and tabs behind, and maybe another
    line end. -/
structure Row.Reformats (w : List Char) (r r' : Row) : Prop where
  padded : ∃ pad, Spacing pad ∧ r'.text = w ++ r.text ++ pad
  ends : r.EndsAlike r'

/-- Every line of the content gets the same margin, the last one nothing else. -/
structure TextBlock.Reformats (w : List Char) (b b' : TextBlock) : Prop where
  margin : Spacing w
  opening : b'.opening.text = b.opening.text
  ends : b.opening.EndsAlike b'.opening
  rows : List.Forall₂ (Row.Reformats w) b.rows b'.rows
  last : b'.last = w ++ b.last

theorem Row.Reformats.shifted {r r' : Row} (h : r.Reformats w r') :
    Shifted w (dropReturns r.text) (dropReturns r'.text) := by
  obtain ⟨pad, hpad, htext⟩ := h.padded
  calc Text.trimEnd (dropReturns r'.text)
      = Text.trimEnd (w ++ r.text ++ pad) := by rw [trimEnd_dropReturns, htext]
    _ = Text.trimEnd (w ++ r.text) := Text.trimEnd_append_blank hpad.blank
    _ = Text.trimEnd (w ++ dropReturns r.text) := (trimEnd_append_dropReturns w r.text).symm

/-- The body of a text block does not change when it is reformatted. -/
theorem TextBlock.Reformats.stripIndent_inner {b b' : TextBlock} (h : b.Reformats w b') :
    stripIndent b'.inner = stripIndent b.inner := by
  have hreturn : '\r' ∉ w := by
    intro hmem
    rcases h.margin _ hmem with heq | heq
    · cases heq
    · cases heq
  have hlast : dropReturns b'.last = w ++ dropReturns b.last := by
    rw [h.last, dropReturns_append hreturn]
  have hrows : List.Forall₂ (Shifted w) (b.rows.map fun r => dropReturns r.text)
      (b'.rows.map fun r => dropReturns r.text) := by
    rw [List.forall₂_map_left_iff, List.forall₂_map_right_iff]
    exact h.rows.imp fun _ _ hr => hr.shifted
  refine stripIndent_shifted h.margin.blank b.blockLines_inner ?_ hrows
  rw [b'.blockLines_inner, hlast]

/-- Every text block whose content starts behind a line feed consists of lines,
    and however they are reformatted, its text is the same: with the same spaces
    and tabs in front of every line, with spaces and tabs behind any line but the
    last, and with carriage returns before line feeds. -/
theorem decodeString_reformatted {raw : String} {inner : List Char} (hfeed : '\n' ∈ inner)
    (hraw : raw.toList = blockQuote ++ (inner ++ blockQuote)) :
    (∃ b : TextBlock, b.raw = raw) ∧
      ∀ b : TextBlock, b.raw = raw → ∀ (w : List Char) (b' : TextBlock), b.Reformats w b' →
        decodeString b'.raw = decodeString raw := by
  constructor
  · obtain ⟨b, rfl⟩ := TextBlock.exists_inner hfeed
    refine ⟨b, ?_⟩
    rw [TextBlock.raw, ← hraw, String.ofList_toList]
  · rintro b rfl w b' h
    unfold decodeString
    rw [b'.stringBody_raw, b.stringBody_raw, h.stripIndent_inner]

/-- A continued line, an empty one and one that is indented further. -/
def sampleBlock : TextBlock where
  opening := ⟨[], false, by decide⟩
  rows := [⟨[' ', 'a', ' ', '\\'], false, by decide⟩, ⟨[], false, by decide⟩,
    ⟨[' ', ' ', 'b'], true, by decide⟩]
  last := [' ']
  no_feed := by decide

/-- The same lines behind a tab, with a blank behind the backslash and in the
    empty line, and with carriage returns. -/
def sampleReformatted : TextBlock where
  opening := ⟨[], true, by decide⟩
  rows := [⟨['\t', ' ', 'a', ' ', '\\', ' '], true, by decide⟩, ⟨['\t', '\t'], true, by decide⟩,
    ⟨['\t', ' ', ' ', 'b'], true, by decide⟩]
  last := ['\t', ' ']
  no_feed := by decide

theorem decodeString_reformatted_sample :
    sampleBlock.Reformats ['\t'] sampleReformatted ∧
      decodeString sampleReformatted.raw = decodeString sampleBlock.raw ∧
      decodeString sampleBlock.raw = "a \n b\n" := by
  have hreformats : sampleBlock.Reformats ['\t'] sampleReformatted :=
    { margin := by decide
      opening := rfl
      ends := fun _ => rfl
      rows := .cons ⟨⟨[' '], by decide, rfl⟩, fun _ => rfl⟩
        (.cons ⟨⟨['\t'], by decide, rfl⟩, fun _ => rfl⟩
          (.cons ⟨⟨[], by decide, rfl⟩, fun _ => rfl⟩ .nil))
      last := rfl }
  have hraw : sampleBlock.raw.toList = blockQuote ++ (sampleBlock.inner ++ blockQuote) :=
    String.toList_ofList
  have hsame := (decodeString_reformatted (by decide) hraw).2 sampleBlock rfl
  exact ⟨hreformats, hsame _ _ hreformats, by decide +kernel⟩

end Literal

end MessageHarvest
