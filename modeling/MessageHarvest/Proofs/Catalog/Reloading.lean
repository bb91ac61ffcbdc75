import MessageHarvest.Proofs.Catalog.RoundTrip
import MessageHarvest.Proofs.Catalog.Saving
import MessageHarvest.Proofs.Encoding.RoundTrip

/-! # Saved catalogs are loaded again

    The bytes of a saved catalog are found at its path, are decoded to the text
    that was written, and that text is read back. The middle step is the one
    that can go wrong: a catalog starts with `#` or `msgid`, so no byte order
    mark is seen, but UTF-16 and the replacement encoding do not read what they
    write.

    * `render_starts`: the two characters that a catalog starts with.
    * `parse_strange`: a text that starts with a character of no line is no
      catalog.
    * `load_saved`: a saved catalog is loaded as it was, if its encoding
      writes in its own form, and else not at all. -/

namespace MessageHarvest.Catalog

/-! ## The beginning of a catalog -/

/-- The two characters that a catalog can start with. -/
def openings : List (Char × Char) := [('#', '\n'), ('#', ' '), ('m', 's')]

theorem commentLines_starts (comment : String) :
    ∃ l ls, commentLines comment = l :: ls ∧ (l = ['#'] ∨ ∃ t, l = '#' :: ' ' :: t) := by
  unfold commentLines
  dsimp only
  split
  · exact ⟨['#'], [], rfl, .inl rfl⟩
  · next hne =>
    have hchars : comment.toList ≠ [] := fun e => hne (by simpa using congrArg String.ofList e)
    obtain ⟨c, t, hct⟩ := List.exists_cons_of_ne_nil hchars
    obtain ⟨l, ls, hls⟩ := Text.linesKept_cons c t
    rw [hct, Text.lines, hls, List.map_cons, List.map_cons]
    refine ⟨_, _, rfl, ?_⟩
    split
    · exact .inl rfl
    · exact .inr ⟨_, rfl⟩

/-- A catalog starts with a comment or with its header entry. -/
theorem render_starts (s : Store) (h : Header) (charset : String) :
    ∃ a b t, render s h charset = a :: b :: t ∧
      (a, b) ∈ openings := by
  unfold render catalogLines
  cases h.comments with
  | nil => exact ⟨'m', 's', _, rfl, by decide⟩
  | cons comment comments =>
    obtain ⟨l, ls, hls, hl⟩ := commentLines_starts comment
    rw [List.flatMap_cons, hls]
    rcases hl with rfl | ⟨t, rfl⟩
    · exact ⟨'#', '\n', _, rfl, by decide⟩
    · exact ⟨'#', ' ', _, rfl, by decide⟩

theorem ascii_starts {a b : Char} (h : (a, b) ∈ openings) :
    a.toNat < 0x80 ∧ b.toNat < 0x80 := by
  simp only [openings, List.mem_cons, Prod.mk.injEq, List.not_mem_nil, or_false] at h
  rcases h with ⟨rfl, rfl⟩ | ⟨rfl, rfl⟩ | ⟨rfl, rfl⟩ <;> decide

/-! ## Texts that are no catalogs -/

/-- A character that no line of a catalog starts with. -/
structure Strange (c : Char) : Prop where
  solid : Text.isBlank c = false
  ne_mark : c ≠ '#'
  ne_quote : c ≠ '"'
  ne_keyword : c ≠ 'm'

namespace Strange

variable {c : Char}

/-- All keywords start with the same letter. -/
theorem ofWord?_eq_none (hc : Strange c) (word : List Char) :
    Keyword.ofWord? (c :: word) = none := by
  have hnumbered : isNumberedMsgstr (c :: word) = false := by
    have hstart : Text.dropStart? "msgstr[".toList (c :: word) = none :=
      if_neg (Ne.symm hc.ne_keyword)
    rw [isNumberedMsgstr, hstart]
  simp [Keyword.ofWord?, hc.ne_keyword, hnumbered]

theorem parse_line (hc : Strange c) {raw t : List Char} (htrim : Text.trim raw = c :: t) :
    ∃ problem, Line.parse raw = .error problem := by
  unfold Line.parse
  rw [htrim]
  split
  · next e => cases e
  · next e => exact absurd (List.cons.inj e).1 hc.ne_mark
  · next e => exact absurd (List.cons.inj e).1 hc.ne_mark
  · next e => exact absurd (List.cons.inj e).1 hc.ne_quote
  · -- the first word is no keyword, if there is one at all
    rw [Text.splitFirst, hc.solid]
    cases Text.splitFirst Text.isBlank t with
    | none => exact ⟨_, rfl⟩
    | some cut =>
      dsimp only [Option.map_some]
      rw [if_neg Bool.false_ne_true]
      dsimp only
      rw [hc.ofWord?_eq_none]
      split
      · exact ⟨_, rfl⟩
      · exact ⟨_, rfl⟩

/-- Nothing is read of a text that starts with such a character. -/
theorem parse (hc : Strange c) (t : List Char) :
    ∃ fault, Catalog.parse (c :: t) = .error fault := by
  obtain ⟨l, ls, hls⟩ := Text.linesKept_cons c t
  have hmem : c :: l ∈ Text.linesKept (c :: t) := by simp [hls]
  -- the first line still starts with the character when its end is taken off
  have htrim : ∃ u, Text.trim (Text.chomp (c :: l)) = c :: u := by
    obtain ⟨a, ha, hl | hl⟩ := Text.eq_of_mem_linesKept hmem
    · rw [hl, Text.trim_chomp]
      cases a with
      | nil =>
        have hblank := hc.solid
        rw [(List.cons.inj hl).1] at hblank
        exact absurd hblank (by decide)
      | cons d a =>
        rw [← (List.cons.inj hl).1, Text.trim_cons hc.solid]
        exact ⟨_, rfl⟩
    · rw [hl, Text.chomp_of_not_mem ha, ← hl, Text.trim_cons hc.solid]
      exact ⟨_, rfl⟩
  obtain ⟨u, hu⟩ := htrim
  obtain ⟨problem, hproblem⟩ := hc.parse_line hu
  have hstep : State.stepText {} (Text.chomp (c :: l)) = .error problem := by
    rw [State.stepText, hproblem]
    rfl
  refine ⟨⟨1, problem⟩, ?_⟩
  rw [Catalog.parse, Text.lines, hls, List.map_cons, readLines, hstep]
  rfl

end Strange

/-- UTF-16 reads the beginning of a catalog that was written as UTF-8 as a
    character that no line starts with. -/
theorem strange_paired {be : Bool} {a b : Char} (h : (a, b) ∈ openings) :
    Strange (Char.ofNat (Encoding.paired be a b)) := by
  simp only [openings, List.mem_cons, Prod.mk.injEq, List.not_mem_nil, or_false] at h
  rcases h with ⟨rfl, rfl⟩ | ⟨rfl, rfl⟩ | ⟨rfl, rfl⟩ <;> cases be <;>
    exact ⟨by decide, by decide, by decide, by decide⟩

/-! ## Loading -/

section Load

variable {d : Disk} {path : Path} {e : Encoding}

/-- A file at a path is loaded from there. -/
theorem run_load {place : Place} {bytes : Bytes} (h : d.find? path = some (place, .file bytes)) :
    Disk.run (load path e) d = (decode path e bytes, d) := by
  have hread : d.readAt path = .ok bytes := by
    unfold Disk.find? at h
    split at h
    · next q hq =>
      obtain ⟨c, hc, heq⟩ := Option.map_eq_some_iff.1 h
      cases heq
      simp only [Disk.readAt, hq, bind, Except.bind, hc]
    · cases h
  have hattempt : Disk.run (FileSystem.attempt (CatalogError.inaccessible path)
      (FileSystem.read path)) d = (.ok bytes, d) := by
    show ((d.readAt path).mapError (CatalogError.inaccessible path), d) = _
    rw [hread]
    rfl
  rw [Disk.run, load, ExceptT.run_bind, run_bind_of_run hattempt]
  rfl

/-- Bytes that are not in the form of the encoding are no catalog for it. -/
theorem decode_foreign (path : Path) (hforeign : e.form.isOwn = false) {a b : Char} {t : List Char}
    {bytes : Bytes} (hab : (a, b) ∈ openings)
    (hencode : e.encode? (a :: b :: t) = some bytes) :
    ∃ cause, decode path e bytes = .error cause := by
  obtain ⟨ha, hb⟩ := ascii_starts hab
  have hform := Encoding.decode?_of_encode? ha hencode
  unfold Encoding.encode? at hencode
  unfold decode
  rw [hform]
  split
  · exact ⟨_, rfl⟩
  · next text htext =>
    cases hf : e.form with
    | utf16 be =>
      rw [hf] at hencode htext
      cases hencode
      obtain ⟨rest, rfl⟩ := Encoding.exists_of_decode?_utf16 ha hb htext
      obtain ⟨fault, hfault⟩ := (strange_paired hab).parse rest
      exact ⟨.malformed path fault, by rw [hfault]; rfl⟩
    | replacement =>
      -- there is something to read, and nothing can be read
      rw [hf] at hencode htext
      cases hencode
      rw [Text.utf8_cons_of_lt ha] at htext
      cases htext
    | utf8 => rw [hf] at hforeign; cases hforeign
    | singleByte upper => rw [hf] at hforeign; cases hforeign
    | userDefined => rw [hf] at hforeign; cases hforeign
    | ascii => rw [hf] at hforeign; cases hforeign

/-- A saved catalog is loaded again as it was, if its encoding writes in its own
    form. In the other encodings, which are UTF-16 and the replacement encoding,
    no saved catalog can be loaded at all. -/
theorem load_saved {label : String} (hlabel : Encoding.resolve label = .ok e) {store : Store}
    {header : Header} {d' : Disk}
    (hstore : ∀ m ∈ store.toList,
      m.key.singular ≠ "" ∧ ∀ o ∈ m.occurrences.toList, Representable o)
    (hsave : Disk.run (save path e store header) d = (.ok (), d')) :
    (e.form.isOwn = true →
      ∃ t, Disk.run (load path e) d' = (.ok t, d') ∧ ReadsBack store t) ∧
    (e.form.isOwn = false → ∃ cause, Disk.run (load path e) d' = (.error cause, d')) := by
  obtain ⟨bytes, hencode, hsaved⟩ : ∃ bytes,
      e.encode? (render store header e.name) = some bytes ∧ Saved path bytes d d' := by
    rcases save_cases hsave with ⟨_, h, -⟩ | ⟨_, h, -⟩ | ⟨bytes, -, hencode, hsaved⟩
    · cases h
    · cases h
    · exact ⟨bytes, hencode, hsaved⟩
  obtain ⟨place, hplace⟩ := hsaved.written
  obtain ⟨a, b, t, hrender, hab⟩ := render_starts store header e.name
  have hascii := ascii_starts hab
  rw [run_load hplace]
  rw [hrender] at hencode
  refine ⟨fun hown => ?_, fun hforeign => ?_⟩
  · have hfits := Encoding.fits_all e (Encoding.mem_all_of_resolve hlabel)
    have hdecode := Encoding.decode?_encode? hfits hown hascii.1 hencode
    have hrepresentable : ∀ m ∈ store.toList, ∀ o ∈ m.occurrences.toList, Representable o :=
      fun m hm => (hstore m hm).2
    have hwritable : Writable store :=
      ⟨fun m hm => (hstore m hm).1, fun m hm o ho => (hrepresentable m hm o ho).path.noLineFeed⟩
    refine ⟨restored store, ?_, readsBack_restored hrepresentable⟩
    rw [decode, hdecode, ← hrender]
    dsimp only
    rw [parse_render hwritable]
    rfl
  · obtain ⟨cause, hcause⟩ := decode_foreign path hforeign hab hencode
    exact ⟨cause, by rw [hcause]⟩

end Load

/-- Messages with occurrences, one of them with a plural. They do not stand in
    the order of their keys, and one of their paths has a blank. -/
def accented : Store := .ofList [
  ⟨⟨"clé", some "clés"⟩, .unordered, .ofList [⟨"src/É.java", 7⟩]⟩,
  ⟨⟨"été", none⟩, .at 1, .ofList [⟨"src/A.java", 3⟩, ⟨"src/a b.java", 12⟩]⟩,
  ⟨⟨"été", some ""⟩, .at 0, .ofList [⟨"src/A.java", 3⟩]⟩]

theorem sorted_accented : accented.sorted = [
    ⟨⟨"été", some ""⟩, .at 0, .ofList [⟨"src/A.java", 3⟩]⟩,
    ⟨⟨"été", none⟩, .at 1, .ofList [⟨"src/A.java", 3⟩, ⟨"src/a b.java", 12⟩]⟩,
    ⟨⟨"clé", some "clés"⟩, .unordered, .ofList [⟨"src/É.java", 7⟩]⟩] :=
  Store.sorted_eq_of_perm (by decide +kernel) (by decide +kernel)

/-- Messages with characters that windows-1252 has are loaded again. -/
theorem load_saved_latin :
    ∃ d', Disk.run (save ⟨"keys.pot"⟩ .windows1252 accented {}) .empty = (.ok (), d') ∧
      ∃ t, Disk.run (load ⟨"keys.pot"⟩ .windows1252) d' = (.ok t, d') ∧
        ReadsBack accented t := by
  have hsaves : (Disk.run (save ⟨"keys.pot"⟩ .windows1252 accented {}) .empty).1 = .ok () := by
    unfold save encode render catalogLines
    rw [sorted_accented]
    decide +kernel
  have hsave : Disk.run (save ⟨"keys.pot"⟩ .windows1252 accented {}) .empty =
      (.ok (), (Disk.run (save ⟨"keys.pot"⟩ .windows1252 accented {}) .empty).2) :=
    Prod.ext hsaves rfl
  have hlabel : Encoding.resolve "latin1" = .ok .windows1252 := by decide +kernel
  have hpaths : ∀ m ∈ accented.toList, m.key.singular ≠ "" ∧ ∀ o ∈ m.occurrences.toList,
      o.path.toList ≠ [] ∧ '\n' ∉ o.path.toList ∧ ':' ∉ o.path.toList ∧
        StartsSolid o.path.toList ∧ o.line < Text.countLimit := by
    decide +kernel
  refine ⟨_, hsave, (load_saved hlabel (fun m hm => ?_) hsave).1 rfl⟩
  obtain ⟨hsingular, hoccurrences⟩ := hpaths m hm
  refine ⟨hsingular, fun o ho => ?_⟩
  obtain ⟨hnonempty, hfeed, hcolon, hsolid, hline⟩ := hoccurrences o ho
  exact ⟨⟨hnonempty, hfeed, hsolid, unbroken_of_not_mem hcolon⟩, hline⟩

/-- A store with one message. -/
def oneMessage (singular : String) : Store := .ofList [⟨⟨singular, none⟩, .at 0, .empty⟩]

/-- A catalog for UTF-16 is saved, and cannot be loaded. -/
theorem load_saved_utf16 :
    Encoding.resolve "utf-16le" = .ok .utf16le ∧
    (Disk.run (save ⟨"keys.pot"⟩ .utf16le (oneMessage "a") {}) .empty).1 = .ok () ∧
    (Disk.run (load ⟨"keys.pot"⟩ .utf16le)
      (Disk.run (save ⟨"keys.pot"⟩ .utf16le (oneMessage "a") {}) .empty).2).1.isOk = false := by
  decide +kernel

end MessageHarvest.Catalog
