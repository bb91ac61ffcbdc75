import MessageHarvest.Proofs.Literal.Escapes
import MessageHarvest.Proofs.Literal.Indentation

/-! # What text blocks denote

    The value of a text block by the rules of the language, on the characters
    of the token and without the definitions of the decoder:

    1. line terminators become line feeds, and the lines behind the first one
       are the content;
    2. the least indentation of the lines that are not white and of the last
       line is taken from every line, with the white space at its end, and a
       white line becomes empty (`strippedBody`);
    3. the lines are joined with line feeds and their escapes are read
       (`BlockDenotes`).

    A block is regular if its white space is spaces and tabs and its escapes are
    valid. The decoder agrees with the rules on every regular block with one
    exception: a single white line, which denotes the empty string and is
    decoded as a line feed.

    * `TextBlock.Regular.stringBody_eq_strippedBody`: both strip the same lines.
    * `TextBlock.Regular.readable_body`: stripping keeps escapes whole.
    * `decodeString_textBlock`: the decoded text has the code units that the
      block denotes, the one exception apart. -/

namespace MessageHarvest.Literal

/-! ## The rules -/

/-- White space within a line. -/
def isSpace (c : Char) : Bool := c == ' ' || c == '\t' || c == '\x0c'

/-- A text with a line feed for every line terminator. -/
def normalised : List Char → List Char
  | '\r' :: '\n' :: t => '\n' :: normalised t
  | '\r' :: t => '\n' :: normalised t
  | c :: t => c :: normalised t
  | [] => []

/-- The lines between the delimiters, without the first one. -/
def contentLines (raw : List Char) : List (List Char) :=
  ((normalised ((raw.drop 3).take (raw.length - 6))).splitOn '\n').tail

/-- Whether a line has nothing but white space. -/
def isWhite (l : List Char) : Bool := l.all isSpace

/-- The white space at the front of a line. -/
def leading (l : List Char) : Nat := (l.takeWhile isSpace).length

/-- The least indentation of the lines that are not white and of the last line. -/
def minimalIndent (ls : List (List Char)) : Nat :=
  ((ls.dropLast.filter (fun l => !isWhite l) ++ ls.getLast?.toList).map leading).min?.getD 0

/-- A line without its incidental white space. -/
def essential (n : Nat) (l : List Char) : List Char :=
  if isWhite l then [] else (l.drop n).rdropWhile isSpace

/-- The lines of a text block without incidental white space, joined. -/
def strippedBody (raw : List Char) : List Char :=
  ['\n'].intercalate ((contentLines raw).map (essential (minimalIndent (contentLines raw))))

/-- The items of a text block are all but Unicode escapes, which do not reach it. -/
def Item.InBlock : Item → Prop
  | unicode .. => False
  | _ => True

/-- The code units that a text block denotes. -/
def BlockDenotes (raw : String) (us : List UInt16) : Prop :=
  Spells Item.InBlock (strippedBody raw.toList) us

/-! ## Regular text blocks -/

/-- White space of any kind in `l` is spaces and tabs. -/
def Spaced (l : List Char) : Prop := ∀ c ∈ l, Text.isBlank c = true → c = ' ' ∨ c = '\t'

instance (l : List Char) : Decidable (Spaced l) := List.decidableBAll _ l

/-- A line with valid escapes. -/
def Readable (l : List Char) : Prop := ∃ us, Spells Item.InBlock l us

/-- A line with valid escapes, which may be continued on the next line. -/
def ReadableRow (l : List Char) : Prop := Readable l ∨ ∃ a, Readable a ∧ l = a ++ ['\\']

/-- Text blocks that are written as the language asks, with ordinary white space
    and without Unicode escapes. -/
structure TextBlock.Regular (b : TextBlock) : Prop where
  opening : ∀ c ∈ b.opening.text, isSpace c = true
  rows : ∀ r ∈ b.rows, Spaced r.text ∧ ReadableRow r.text
  last : Spaced b.last ∧ Readable b.last

/-! ## Lines of regular blocks -/

section Lines

variable {l : List Char} {n : Nat}

theorem isBlank_of_isSpace {c : Char} (h : isSpace c = true) : Text.isBlank c = true := by
  simp only [isSpace, Bool.or_eq_true, beq_iff_eq] at h
  rcases h with (rfl | rfl) | rfl
  · rfl
  · rfl
  · rfl

theorem Spaced.isBlank_eq (h : Spaced l) {c : Char} (hc : c ∈ l) : Text.isBlank c = isSpace c := by
  by_cases hblank : Text.isBlank c = true
  · rcases h c hc hblank with rfl | rfl
    · rfl
    · rfl
  · have hspace : ¬ isSpace c = true := fun hs => hblank (isBlank_of_isSpace hs)
    rw [Bool.eq_false_iff.2 hblank, Bool.eq_false_iff.2 hspace]

theorem Spaced.no_return (h : Spaced l) : '\r' ∉ l := by
  intro hmem
  rcases h '\r' hmem rfl with heq | heq
  · cases heq
  · cases heq

theorem Spaced.isBlankLine_eq (h : Spaced l) : isBlankLine l = isWhite l := by
  rw [Bool.eq_iff_iff, isBlankLine_iff, isWhite, List.all_eq_true]
  constructor
  · intro hl c hc
    rw [← h.isBlank_eq hc]
    exact hl c hc
  · intro hl c hc
    rw [h.isBlank_eq hc]
    exact hl c hc

theorem takeWhile_congr {p q : Char → Bool} (h : ∀ c ∈ l, p c = q c) :
    l.takeWhile p = l.takeWhile q := by
  induction l with
  | nil => rfl
  | cons c l ih =>
    rw [List.forall_mem_cons] at h
    rw [List.takeWhile_cons, List.takeWhile_cons, h.1, ih h.2]

theorem rdropWhile_congr {p q : Char → Bool} (h : ∀ c ∈ l, p c = q c) :
    l.rdropWhile p = l.rdropWhile q := by
  induction l using List.reverseRecOn with
  | nil => rfl
  | append_singleton l c ih =>
    have hl : ∀ d ∈ l, p d = q d := fun d hd => h d (List.mem_append_left _ hd)
    rw [List.rdropWhile_concat, List.rdropWhile_concat, h c (by simp), ih hl]

theorem Spaced.indentation_eq (h : Spaced l) : indentation l = leading l :=
  congrArg List.length (takeWhile_congr fun _ hc => h.isBlank_eq hc)

theorem Spaced.stripLine_eq (h : Spaced l) : stripLine n l = essential n l := by
  have hdrop : stripLine n l = (l.drop n).rdropWhile isSpace :=
    rdropWhile_congr fun _ hc => h.isBlank_eq (List.mem_of_mem_drop hc)
  unfold essential
  split
  · next hwhite =>
    -- a white line is emptied by the decoder too, whatever its length is
    rw [hdrop, List.rdropWhile_eq_nil_iff]
    intro c hc
    exact List.all_eq_true.1 hwhite c (List.mem_of_mem_drop hc)
  · exact hdrop

theorem least_eq_min? (ns : List Nat) : least ns = ns.min?.getD 0 := by
  induction ns with
  | nil => rfl
  | cons n ns ih =>
    cases ns with
    | nil => rfl
    | cons m ns =>
      rw [least_cons (by simp), ih, List.min?_cons (x := n)]
      cases h : (m :: ns).min? with
      | none => simp at h
      | some k => rfl

/-- The decoder counts the same lines, and their indentation is the same. -/
theorem shared_eq {rows : List (List Char)} {last : List Char} (hrows : ∀ l ∈ rows, Spaced l)
    (hlast : Spaced last) : shared rows last = minimalIndent (rows ++ [last]) := by
  have hfilter : rows.filter (fun l => !isBlankLine l) = rows.filter fun l => !isWhite l :=
    List.filter_congr fun l hl => by rw [(hrows l hl).isBlankLine_eq]
  have hspaced : ∀ l ∈ counted rows last, Spaced l := by
    intro l hl
    rcases List.mem_append.1 hl with hl | hl
    · exact hrows l (List.mem_filter.1 hl).1
    · rw [List.mem_singleton.1 hl]
      exact hlast
  unfold shared minimalIndent
  rw [least_eq_min?, List.map_congr_left fun l hl => (hspaced l hl).indentation_eq, counted,
    hfilter, List.dropLast_concat, List.getLast?_concat]
  rfl

end Lines

/-! ## Both strip the same lines -/

theorem normalised_cons {c : Char} (h : c ≠ '\r') (t : List Char) :
    normalised (c :: t) = c :: normalised t := by
  rw [normalised]
  · intro t' heq
    exact absurd heq h
  · exact h

theorem normalised_append {l : List Char} (h : '\r' ∉ l) (t : List Char) :
    normalised (l ++ t) = l ++ normalised t := by
  induction l with
  | nil => rfl
  | cons c l ih =>
    rw [List.mem_cons, not_or] at h
    rw [List.cons_append, normalised_cons (Ne.symm h.1), ih h.2, List.cons_append]

/-- A line with a line feed alone at its end. -/
def Row.unified (r : Row) : Row := { r with crlf := false }

theorem Row.normalised_spelling {r : Row} (h : '\r' ∉ r.text) (t : List Char) :
    normalised (r.spelling ++ t) = r.unified.spelling ++ normalised t := by
  have hend : normalised ((if r.crlf then ['\r'] else []) ++ '\n' :: t) = '\n' :: normalised t := by
    cases r.crlf with
    | true => exact normalised.eq_1 t
    | false => exact normalised_cons (by decide) t
  simp only [Row.spelling, Row.before, Row.unified, List.append_assoc, List.singleton_append,
    normalised_append h, hend]
  simp

theorem normalised_rows {rows : List Row} {last : List Char} (hrows : ∀ r ∈ rows, '\r' ∉ r.text)
    (hlast : '\r' ∉ last) :
    normalised (rows.flatMap Row.spelling ++ last) =
      (rows.map Row.unified).flatMap Row.spelling ++ last := by
  induction rows with
  | nil => simpa [normalised] using normalised_append hlast []
  | cons r rows ih =>
    rw [List.forall_mem_cons] at hrows
    rw [List.flatMap_cons, List.append_assoc, Row.normalised_spelling hrows.1, ih hrows.2,
      List.map_cons, List.flatMap_cons, List.append_assoc]

namespace TextBlock

/-- The content is the lines behind the opening one. -/
theorem contentLines_raw {b : TextBlock} (hopening : '\r' ∉ b.opening.text)
    (hrows : ∀ r ∈ b.rows, '\r' ∉ r.text) (hlast : '\r' ∉ b.last) :
    contentLines b.raw.toList = b.rows.map Row.text ++ [b.last] := by
  have hinner : (b.raw.toList.drop 3).take (b.raw.toList.length - 6) = b.inner := by
    have hlength : (blockQuote ++ (b.inner ++ blockQuote)).length - 6 = b.inner.length := by
      simp only [List.length_append, blockQuote, List.length_cons, List.length_nil]
      omega
    rw [raw, String.toList_ofList, hlength]
    exact List.take_left
  have hall : b.inner = (b.opening :: b.rows).flatMap Row.spelling ++ b.last := by
    rw [inner, List.flatMap_cons, List.append_assoc]
  have hbefore : ∀ r : Row, r.unified.before = r.text := fun r => List.append_nil r.text
  unfold contentLines
  rw [hinner, hall, normalised_rows (List.forall_mem_cons.2 ⟨hopening, hrows⟩) hlast,
    splitOn_rows _ b.no_feed, List.map_cons, List.map_cons, List.cons_append, List.tail_cons,
    List.map_map]
  exact congrArg (· ++ [b.last]) (List.map_congr_left fun r _ => hbefore r)

theorem intercalate_concat_nil {ls : List (List Char)} (h : ls ≠ []) :
    ['\n'].intercalate (ls ++ [[]]) = ['\n'].intercalate ls ++ ['\n'] := by
  induction ls with
  | nil => exact absurd rfl h
  | cons l ls ih =>
    cases ls with
    | nil => simp
    | cons l' ls =>
      have htail := ih (by simp)
      rw [List.cons_append, List.cons_append, List.intercalate_cons_cons, ← List.cons_append, htail,
        List.intercalate_cons_cons]
      simp only [List.append_assoc]

variable {b : TextBlock}

theorem Regular.contentLines_eq (h : b.Regular) :
    contentLines b.raw.toList = b.rows.map Row.text ++ [b.last] := by
  refine contentLines_raw ?_ (fun r hr => (h.rows r hr).1.no_return) h.last.1.no_return
  intro hmem
  exact absurd (h.opening _ hmem) (by decide)

theorem Regular.blockLines_eq (h : b.Regular) :
    blockLines b.inner = b.rows.map Row.text ++ [b.last] := by
  have hrows : b.rows.map (fun r => dropReturns r.text) = b.rows.map Row.text :=
    List.map_congr_left fun r hr => dropReturns_of_not_mem (h.rows r hr).1.no_return
  rw [b.blockLines_inner, hrows, dropReturns_of_not_mem h.last.1.no_return]

/-- What is left of the lines of a block by the rules. -/
def essentials (b : TextBlock) : List (List Char) :=
  (b.rows.map Row.text).map (essential (minimalIndent (b.rows.map Row.text ++ [b.last])))

/-- The decoder ends the lines with line feeds where the last one is white. -/
theorem Regular.stringBody_eq (h : b.Regular) :
    stringBody b.raw.toList =
      if isWhite b.last then ['\n'].intercalate b.essentials ++ ['\n']
      else strippedBody b.raw.toList := by
  have hspaced : ∀ l ∈ b.rows.map Row.text, Spaced l := by
    intro l hl
    obtain ⟨r, hr, rfl⟩ := List.mem_map.1 hl
    exact (h.rows r hr).1
  have hshared := shared_eq hspaced h.last.1
  have hlines : ∀ n, (b.rows.map Row.text).map (stripLine n) =
      (b.rows.map Row.text).map (essential n) := fun n =>
    List.map_congr_left fun l hl => (hspaced l hl).stripLine_eq
  rw [b.stringBody_raw, stripIndent_of_lines h.blockLines_eq, h.last.1.isBlankLine_eq, hshared,
    List.map_append, hlines, Text.join_eq_intercalate, Text.join_eq_intercalate, strippedBody,
    h.contentLines_eq, List.map_append, List.map_singleton, List.map_singleton,
    h.last.1.stripLine_eq]
  rfl

theorem Regular.strippedBody_eq (h : b.Regular) (hwhite : isWhite b.last = true) :
    strippedBody b.raw.toList = ['\n'].intercalate (b.essentials ++ [[]]) := by
  have hlast : ∀ n, essential n b.last = [] := fun n => if_pos hwhite
  rw [strippedBody, h.contentLines_eq, List.map_append, List.map_singleton, hlast]
  rfl

/-- Both strip the same lines, unless there is only one and it is white. -/
theorem Regular.stringBody_eq_strippedBody (h : b.Regular)
    (hlines : ¬ (b.rows = [] ∧ isWhite b.last = true)) :
    stringBody b.raw.toList = strippedBody b.raw.toList := by
  rw [h.stringBody_eq]
  split
  · next hwhite =>
    -- with a line before it, a white last line is an empty one behind a line feed
    have hne : b.essentials ≠ [] := by
      intro hnil
      refine hlines ⟨?_, hwhite⟩
      simpa [essentials] using hnil
    rw [h.strippedBody_eq hwhite, intercalate_concat_nil hne]
  · rfl

end TextBlock

/-! ## Stripping keeps escapes whole -/

section Parts

variable {P : Item → Prop} {i : Item} {a t r : List Char} {us vs : List UInt16}

theorem Item.EndsBefore.of_prefix (h : i.EndsBefore t) (hp : a <+: t) : i.EndsBefore a := by
  cases i with
  | octal first more hmore =>
    refine h.imp id fun hhead => ?_
    cases a with
    | nil => rfl
    | cons c a =>
      obtain ⟨r, rfl⟩ := hp
      exact hhead
  | _ => trivial

theorem Item.EndsBefore.append (h : i.EndsBefore t) (hr : r.head?.any Item.isOctal = false) :
    i.EndsBefore (t ++ r) := by
  cases i with
  | octal first more hmore =>
    refine h.imp id fun hhead => ?_
    cases t with
    | nil => exact hr
    | cons c t => exact hhead
  | _ => trivial

/-- Items in front of text that does not start with an octal digit. -/
theorem Spells.append (h : Spells P t us) (hr : Spells P r vs)
    (hhead : r.head?.any Item.isOctal = false) : Spells P (t ++ r) (us ++ vs) := by
  induction h with
  | nil => exact hr
  | cons hi hend _ ih =>
    rw [List.append_assoc, List.append_assoc]
    exact .cons hi (hend.append hhead) ih

/-- A white space character is an item by itself. -/
theorem Spells.tail {c : Char} (h : Spells P (c :: t) us) (hc : isSpace c = true) :
    ∃ vs, Spells P t vs := by
  generalize hs : c :: t = s at h
  cases h with
  | nil => cases hs
  | @cons i r us hi hend hr =>
    rcases i.spelling_cases with ⟨d, hd, rfl⟩ | ⟨q, hq⟩
    · cases hs
      exact ⟨us, hr⟩
    · -- an escape starts with a backslash
      rw [hq] at hs
      cases hs
      exact absurd hc (by decide)

theorem Spells.drop {n : Nat} (h : Spells P t us) (hn : n ≤ leading t) :
    ∃ vs, Spells P (t.drop n) vs := by
  induction n generalizing t us with
  | zero => exact ⟨us, h⟩
  | succ n ih =>
    cases t with
    | nil => exact absurd hn (by simp [leading])
    | cons c t =>
      by_cases hc : isSpace c = true
      · obtain ⟨vs, hvs⟩ := h.tail hc
        have hle : n ≤ leading t := by
          rw [leading, List.takeWhile_cons_of_pos hc, List.length_cons] at hn
          exact Nat.le_of_succ_le_succ hn
        exact ih hvs hle
      · rw [leading, List.takeWhile_cons_of_neg hc] at hn
        exact absurd hn (by simp)

/-- Only a character can be white space at its end. -/
theorem Item.rdropWhile_spelling (i : Item) :
    i.spelling.rdropWhile isSpace = i.spelling ∨ i.spelling.rdropWhile isSpace = [] := by
  have hkeep : ∀ (t : List Char) (c : Char), isSpace c = false →
      (t ++ [c]).rdropWhile isSpace = t ++ [c] := by
    intro t c hc
    exact List.rdropWhile_concat_neg _ _ _ (by rw [hc]; exact Bool.false_ne_true)
  have hdigits : ∀ {radix : Nat} (t : List Char) (d : Digit radix) (ds : List (Digit radix)),
      radix ≤ 16 → (t ++ (d :: ds).map Digit.char).rdropWhile isSpace =
        t ++ (d :: ds).map Digit.char := by
    intro radix t d ds hradix
    obtain ⟨ds', d', hds⟩ : ∃ ds' d', d :: ds = ds' ++ [d'] :=
      ⟨_, _, (List.dropLast_append_getLast (List.cons_ne_nil d ds)).symm⟩
    have hd : isSpace d'.char = false :=
      Digit.char_of_forall (P := (isSpace · = false)) hradix (by decide) d'
    rw [hds, List.map_append, List.map_singleton, ← List.append_assoc, hkeep _ _ hd]
  cases i with
  | plain c h =>
    rw [Item.spelling, List.rdropWhile_singleton]
    cases hc : isSpace c with
    | true => exact .inr rfl
    | false => exact .inl rfl
  | letter c u h =>
    have hletters : ∀ e ∈ letterEscapes, isSpace e.1 = false := by decide
    exact .inl (hkeep ['\\'] c (hletters _ h))
  | octal first more h => exact .inl (hdigits ['\\'] first more (by decide))
  | unicode extra ds h =>
    obtain ⟨d, ds, rfl⟩ := List.exists_cons_of_length_pos (by rw [h]; decide)
    exact .inl (hdigits ('\\' :: 'u' :: List.replicate extra 'u') d ds (by decide))
  | continued => exact .inl (hkeep ['\\'] '\n' rfl)

theorem rdropWhile_append (p : Char → Bool) (t r : List Char) :
    (t ++ r).rdropWhile p =
      if r.rdropWhile p = [] then t.rdropWhile p else t ++ r.rdropWhile p := by
  induction r using List.reverseRecOn with
  | nil => simp
  | append_singleton r c ih =>
    rw [← List.append_assoc, List.rdropWhile_concat, List.rdropWhile_concat]
    by_cases hc : p c = true
    · simpa [hc] using ih
    · simp [hc]

/-- White space at the end is whole items. -/
theorem Spells.trimmed (h : Spells P t us) : ∃ vs, Spells P (t.rdropWhile isSpace) vs := by
  induction h with
  | nil => exact ⟨[], .nil⟩
  | @cons i t us hi hend _ ih =>
    obtain ⟨vs, hvs⟩ := ih
    rw [rdropWhile_append]
    split
    -- nothing of the rest is left, so the item is the last one and is trimmed itself
    · rcases i.rdropWhile_spelling with hkept | hnone
      · rw [hkept]
        have hone := Spells.cons hi (hend.of_prefix (List.nil_prefix)) Spells.nil
        rw [List.append_nil] at hone
        exact ⟨_, hone⟩
      · rw [hnone]
        exact ⟨[], .nil⟩
    · exact ⟨_, .cons hi (hend.of_prefix (List.rdropWhile_prefix ..)) hvs⟩

end Parts

/-! ## The stripped body has valid escapes -/

section Readable

variable {l a t : List Char} {n : Nat}

theorem Readable.nil : Readable [] := ⟨[], .nil⟩

theorem Readable.essential (h : Readable l) (hn : isWhite l = false → n ≤ leading l) :
    Readable (essential n l) := by
  unfold Literal.essential
  split
  · exact .nil
  · next hwhite =>
    obtain ⟨us, hus⟩ := h
    obtain ⟨vs, hvs⟩ := hus.drop (hn (Bool.eq_false_iff.2 hwhite))
    exact hvs.trimmed

/-- The backslash of a continued line is no white space and stays where it is. -/
theorem ReadableRow.essential (h : ReadableRow l) (hn : isWhite l = false → n ≤ leading l) :
    ReadableRow (essential n l) := by
  rcases h with h | ⟨a, ha, rfl⟩
  · exact .inl (h.essential hn)
  · right
    have hsolid : isWhite (a ++ ['\\']) = false := by simp [isWhite, isSpace]
    have hleading : leading (a ++ ['\\']) = leading a := by
      unfold leading
      rw [List.takeWhile_append]
      split
      · next hall =>
        rw [hall]
        simp [isSpace]
      · rfl
    have hle : n ≤ leading a := by
      rw [← hleading]
      exact hn hsolid
    have hlength : n ≤ a.length := Nat.le_trans hle (List.takeWhile_prefix _).length_le
    obtain ⟨us, hus⟩ := ha
    refine ⟨a.drop n, hus.drop hle, ?_⟩
    rw [Literal.essential, hsolid, if_neg Bool.false_ne_true, List.drop_append_of_le_length hlength]
    exact List.rdropWhile_concat_neg _ _ _ (by decide)

/-- A line and the lines behind it. -/
theorem ReadableRow.join (h : ReadableRow l) (ht : Readable t) : Readable (l ++ '\n' :: t) := by
  obtain ⟨vs, hvs⟩ := ht
  rcases h with ⟨us, hus⟩ | ⟨a, ⟨us, hus⟩, rfl⟩
  · -- the line feed is a character
    have hfeed := Spells.cons (P := Item.InBlock) (i := .plain '\n' (by decide)) trivial trivial hvs
    exact ⟨_, hus.append hfeed rfl⟩
  · -- the line feed belongs to the backslash in front of it
    have hcontinued := Spells.cons (P := Item.InBlock) (i := .continued) trivial trivial hvs
    rw [List.append_assoc]
    exact ⟨_, hus.append hcontinued rfl⟩

theorem readable_intercalate {ls : List (List Char)} (hls : ∀ l ∈ ls, ReadableRow l)
    (ht : Readable t) : Readable (['\n'].intercalate (ls ++ [t])) := by
  induction ls with
  | nil => simpa using ht
  | cons l ls ih =>
    rw [List.forall_mem_cons] at hls
    have hcons : ['\n'].intercalate (l :: ls ++ [t]) =
        l ++ '\n' :: ['\n'].intercalate (ls ++ [t]) := by
      obtain ⟨m, ms, hms⟩ := List.exists_cons_of_ne_nil (List.concat_ne_nil t ls)
      rw [List.cons_append, hms, List.intercalate_cons_cons, List.append_assoc]
      rfl
    rw [hcons]
    exact hls.1.join (ih hls.2)

end Readable

/-- The shared indentation is part of every line that is not white. -/
theorem minimalIndent_le {rows : List (List Char)} {last l : List Char}
    (hl : l ∈ rows ∧ isWhite l = false ∨ l = last) :
    minimalIndent (rows ++ [last]) ≤ leading l := by
  have hmem : leading l ∈ ((rows ++ [last]).dropLast.filter (fun l => !isWhite l) ++
      (rows ++ [last]).getLast?.toList).map leading := by
    refine List.mem_map_of_mem ?_
    rw [List.dropLast_concat, List.getLast?_concat, List.mem_append, List.mem_filter]
    rcases hl with ⟨hrow, hsolid⟩ | rfl
    · exact .inl ⟨hrow, by rw [hsolid]; rfl⟩
    · exact .inr (by simp)
  exact List.min?_getD_le_of_mem hmem

namespace TextBlock

variable {b : TextBlock}

/-- Without incidental white space a regular block still has valid escapes. -/
theorem Regular.readable_body (h : b.Regular) : Readable (strippedBody b.raw.toList) := by
  have hrows : ∀ l ∈ b.essentials, ReadableRow l := by
    intro l hl
    obtain ⟨t, ht, rfl⟩ := List.mem_map.1 hl
    obtain ⟨r, hr, rfl⟩ := List.mem_map.1 ht
    exact (h.rows r hr).2.essential fun hsolid => minimalIndent_le (.inl ⟨ht, hsolid⟩)
  have hlast : Readable (essential (minimalIndent (b.rows.map Row.text ++ [b.last])) b.last) :=
    h.last.2.essential fun _ => minimalIndent_le (.inr rfl)
  rw [strippedBody, h.contentLines_eq, List.map_append, List.map_singleton]
  exact readable_intercalate hrows hlast

end TextBlock

/-! ## Items of a block are characters -/

/-- A code unit below the surrogates is a character. -/
theorem exists_units_of_lt {u : UInt16} (h : u.toNat < 0xD800) : ∃ s, [u] = Text.units s := by
  have hsingle : ¬ Text.isSurrogate u = true := by
    rw [Text.isSurrogate_iff]
    omega
  refine ⟨[Text.ofUnit u], ?_⟩
  rw [← Text.unitsOf_ofUnit hsingle]
  simp [Text.units]

theorem Item.exists_units {i : Item} (h : i.InBlock) : ∃ s, i.units = Text.units s := by
  cases i with
  | plain c hc => exact ⟨[c], by simp [Text.units, Item.units]⟩
  | letter c u hc =>
    have hletters : ∀ e ∈ letterEscapes, e.2.toNat < 0xD800 := by decide
    exact exists_units_of_lt (hletters _ hc)
  | octal first more hmore =>
    have hdigits : (first :: more).length ≤ 3 := by
      have hroom : octalRoom first ≤ 2 := by
        unfold octalRoom
        split <;> decide
      rw [List.length_cons]
      omega
    have hnumber : Digit.number (first :: more) < 8 ^ 3 :=
      Nat.lt_of_lt_of_le (Digit.number_lt (by decide) _) (Nat.pow_le_pow_right (by decide) hdigits)
    refine exists_units_of_lt ?_
    rw [Text.toNat_toUInt16 (by omega)]
    omega
  | unicode extra ds hds => exact h.elim
  | continued => exact ⟨[], rfl⟩

/-- What a text block denotes is the code units of a text. -/
theorem exists_units_of_spells {t : List Char} {us : List UInt16} (h : Spells Item.InBlock t us) :
    ∃ s, us = Text.units s := by
  induction h with
  | nil => exact ⟨[], rfl⟩
  | cons hi _ _ ih =>
    obtain ⟨s, hs⟩ := Item.exists_units hi
    obtain ⟨s', hs'⟩ := ih
    exact ⟨s ++ s', by rw [hs, hs', Text.units_append]⟩

/-- A body with valid escapes denotes exactly the code units of its text. -/
theorem spells_iff_units {t : List Char} {us : List UInt16} (ht : Readable t) :
    Spells Item.InBlock t us ↔ us = Text.units (Text.ofUnits (unescape t)) := by
  have hunits : ∀ {vs}, Spells Item.InBlock t vs → vs = Text.units (Text.ofUnits (unescape t)) := by
    intro vs hvs
    obtain ⟨s, hs⟩ := exists_units_of_spells hvs
    rw [unescape_of_spells hvs, hs, Text.ofUnits_units]
  constructor
  · exact hunits
  · intro heq
    obtain ⟨vs, hvs⟩ := ht
    rwa [heq, ← hunits hvs]

/-- A regular text block is decoded to the text whose code units it denotes,
    unless its content is a single white line. Such a block denotes the empty
    string and is decoded to a line feed. -/
theorem decodeString_textBlock {b : TextBlock} (h : b.Regular) :
    (¬ (b.rows = [] ∧ isWhite b.last = true) →
      ∀ us, BlockDenotes b.raw us ↔ us = Text.units (decodeString b.raw).toList) ∧
    (b.rows = [] ∧ isWhite b.last = true →
      (∀ us, BlockDenotes b.raw us ↔ us = []) ∧ decodeString b.raw = "\n") := by
  constructor
  · intro hlines us
    rw [BlockDenotes, spells_iff_units h.readable_body, decodeString, String.toList_ofList,
      h.stringBody_eq_strippedBody hlines]
  · rintro ⟨hrows, hwhite⟩
    have hessentials : b.essentials = [] := by rw [TextBlock.essentials, hrows]; rfl
    have hbody : strippedBody b.raw.toList = [] := by
      rw [h.strippedBody_eq hwhite, hessentials]
      rfl
    constructor
    · intro us
      rw [BlockDenotes, spells_iff_units h.readable_body, hbody, unescape]
      rfl
    · have hfeed : unescape (['\n'].intercalate [] ++ ['\n']) = Text.units ['\n'] := by
        show unescape ['\n'] = _
        rw [unescape, if_neg (by decide), unescape]
        rfl
      rw [decodeString, h.stringBody_eq, if_pos hwhite, hessentials, hfeed, Text.ofUnits_units]

/-- A continued line, and a line with two escapes behind a tab. -/
def sampleTextBlock : TextBlock where
  opening := ⟨[' ', '\t'], true, by decide⟩
  rows := [⟨['\t', 'c', ' ', '\\'], true, by decide⟩,
    ⟨['\t', '\\', '1', '0', '1', '\\', 't', ' '], false, by decide⟩]
  last := [' ', ' ']
  no_feed := by decide

theorem sampleTextBlock_regular : sampleTextBlock.Regular := by
  have hcontinued := Spells.cons (P := Item.InBlock) (i := .plain '\t' (by decide)) trivial trivial
    (.cons (i := .plain 'c' (by decide)) trivial trivial
    (.cons (i := .plain ' ' (by decide)) trivial trivial .nil))
  have hescapes := Spells.cons (P := Item.InBlock) (i := .plain '\t' (by decide)) trivial trivial
    (.cons (i := .octal ⟨1, false⟩ [⟨0, false⟩, ⟨1, false⟩] (by decide)) trivial (.inl rfl)
    (.cons (i := .letter 't' 0x09 (by decide)) trivial trivial
    (.cons (i := .plain ' ' (by decide)) trivial trivial .nil)))
  have hlast := Spells.cons (P := Item.InBlock) (i := .plain ' ' (by decide)) trivial trivial
    (.cons (i := .plain ' ' (by decide)) trivial trivial .nil)
  constructor
  · exact List.all_eq_true.1 rfl
  · intro r hr
    rcases List.mem_pair.1 hr with rfl | rfl
    · exact ⟨by decide, .inr ⟨_, ⟨_, hcontinued⟩, rfl⟩⟩
    · exact ⟨by decide, .inl ⟨_, hescapes⟩⟩
  · exact ⟨by decide, ⟨_, hlast⟩⟩

theorem decodeString_textBlock_sample :
    sampleTextBlock.Regular ∧ ¬ (sampleTextBlock.rows = [] ∧ isWhite sampleTextBlock.last = true) ∧
      decodeString sampleTextBlock.raw = "c A\t\n" ∧
      BlockDenotes sampleTextBlock.raw (Text.units "c A\t\n".toList) := by
  have hlines : ¬ (sampleTextBlock.rows = [] ∧ isWhite sampleTextBlock.last = true) := by
    rintro ⟨hrows, -⟩
    cases hrows
  have hdecoded : decodeString sampleTextBlock.raw = "c A\t\n" := by decide +kernel
  have hdenotes := (decodeString_textBlock sampleTextBlock_regular).1 hlines
  refine ⟨sampleTextBlock_regular, hlines, hdecoded, ?_⟩
  rw [hdenotes, hdecoded]

/-- A single white line denotes the empty string and is decoded to a line feed. -/
theorem decodeString_white_line :
    (∀ us, BlockDenotes "\"\"\"\n  \"\"\"" us ↔ us = []) ∧
      decodeString "\"\"\"\n  \"\"\"" = "\n" := by
  constructor
  · intro us
    have hbody : strippedBody "\"\"\"\n  \"\"\"".toList = [] := by decide +kernel
    rw [BlockDenotes, hbody, spells_iff_units .nil, unescape]
    rfl
  · decide +kernel

end MessageHarvest.Literal
