import MessageHarvest.Proofs.Catalog.Reading

/-! # Where a catalog cannot be read

    The reader stops at the first line that it cannot go on with. A fault comes
    from that line or from the end of the text, which closes the entry that is
    left open.

    * `FailsAt`, `parse_eq_error_iff`: the two ways to fail.
    * `FailsAt.of_take`: whether a line can be read depends on it and on the
      lines before it.
    * `finish_eq_error`: what can be wrong with the end alone.
    * `fault_local`: a fault is on a line of the text, and before the last line
      it stays whatever follows; the lines before it have no fault but that
      they end too early. -/

namespace MessageHarvest.Catalog

/-! ## The first line that cannot be read -/

/-- The lines before line `i`, counted from zero, can be read, and that line
    has a problem behind them. -/
def FailsAt (s : State) (ls : List (List Char)) (i : Nat) (p : Problem) : Prop :=
  ∃ before l after s', ls = before ++ l :: after ∧ before.length = i ∧ Reads s before s' ∧
    s'.stepText l = .error p

section FailsAt

variable {s : State} {ls ls' : List (List Char)} {i : Nat} {p : Problem}

theorem FailsAt.lt_length (h : FailsAt s ls i p) : i < ls.length := by
  obtain ⟨before, l, after, s', rfl, rfl, -, -⟩ := h
  simp only [List.length_append, List.length_cons]
  omega

theorem FailsAt.cons {l : List Char} {s' : State} (hs : s.stepText l = .ok s')
    (h : FailsAt s' ls i p) : FailsAt s (l :: ls) (i + 1) p := by
  obtain ⟨before, l', after, s'', rfl, rfl, hr, hp⟩ := h
  exact ⟨l :: before, l', after, s'', rfl, rfl, .cons hs hr, hp⟩

/-- Only the line and those before it count. -/
theorem FailsAt.of_take (h : FailsAt s ls i p) (hsame : ls'.take (i + 1) = ls.take (i + 1)) :
    FailsAt s ls' i p := by
  obtain ⟨before, l, after, s', rfl, rfl, hr, hp⟩ := h
  have htake : (before ++ l :: after).take (before.length + 1) = before ++ [l] := by
    rw [List.take_length_add_append]
    rfl
  refine ⟨before, l, ls'.drop (before.length + 1), s', ?_, rfl, hr, hp⟩
  calc ls' = ls'.take (before.length + 1) ++ ls'.drop (before.length + 1) :=
        (List.take_append_drop ..).symm
    _ = before ++ l :: ls'.drop (before.length + 1) := by
        rw [hsame, htake, List.append_assoc, List.singleton_append]

theorem FailsAt.reads_take (h : FailsAt s ls i p) : ∃ s', Reads s (ls.take i) s' := by
  obtain ⟨before, l, after, s', rfl, rfl, hr, -⟩ := h
  refine ⟨s', ?_⟩
  rw [List.take_left]
  exact hr

/-- Reading lines fails at the first one that cannot be read. -/
theorem readLines_eq_error_iff {n : Nat} {f : Fault} :
    readLines s n ls = .error f ↔ ∃ i, f.line = n + i ∧ FailsAt s ls i f.problem := by
  obtain ⟨line, problem⟩ := f
  induction ls generalizing s n with
  | nil =>
    constructor
    · intro h
      cases h
    · rintro ⟨i, -, h⟩
      exact absurd h.lt_length (Nat.not_lt_zero i)
  | cons l ls ih =>
    rw [readLines]
    cases hs : s.stepText l with
    | error p =>
      constructor
      · intro h
        cases h
        exact ⟨0, rfl, [], l, ls, s, rfl, rfl, .nil s, hs⟩
      · rintro ⟨i, hline, before, l', after, s', hls, hi, hr, hp⟩
        cases hr with
        | nil =>
          obtain ⟨rfl, rfl⟩ := List.cons.inj hls
          rw [hs] at hp
          subst hi
          obtain rfl : line = n := hline
          cases hp
          rfl
        | cons hs' _ =>
          -- the first line would have to be readable
          obtain ⟨rfl, -⟩ := List.cons.inj hls
          rw [hs] at hs'
          cases hs'
    | ok s₁ =>
      show readLines s₁ (n + 1) ls = .error ⟨line, problem⟩ ↔ _
      rw [ih]
      show (∃ i, line = n + 1 + i ∧ _) ↔ ∃ i, line = n + i ∧ _
      constructor
      · rintro ⟨i, hline, h⟩
        exact ⟨i + 1, by omega, h.cons hs⟩
      · rintro ⟨i, hline, before, l', after, s', hls, hi, hr, hp⟩
        cases hr with
        | nil =>
          obtain ⟨rfl, -⟩ := List.cons.inj hls
          rw [hs] at hp
          cases hp
        | @cons _ s₂ _ _ rest hs' hr =>
          obtain ⟨rfl, rfl⟩ := List.cons.inj hls
          rw [hs] at hs'
          cases hs'
          rw [List.length_cons] at hi
          exact ⟨rest.length, by omega, rest, l', after, s', rfl, rfl, hr, hp⟩

end FailsAt

/-! ## The two ways to fail -/

/-- A catalog fails at a line, or all its lines can be read and the end fails. -/
theorem parse_eq_error_iff {text : List Char} {f : Fault} :
    parse text = .error f ↔
      (∃ i, f.line = 1 + i ∧ FailsAt {} (Text.lines text) i f.problem) ∨
      (f.line = (Text.lines text).length ∧
        ∃ s, Reads {} (Text.lines text) s ∧ s.finish = .error f.problem) := by
  unfold parse
  rw [bind_eq_error_iff, readLines_eq_error_iff]
  refine or_congr_right ?_
  simp only [readLines_eq_ok_iff]
  constructor
  · rintro ⟨s, hr, h⟩
    split at h
    · cases h
    · next p hf =>
      cases h
      exact ⟨rfl, s, hr, hf⟩
  · rintro ⟨hline, s, hr, hf⟩
    refine ⟨s, hr, ?_⟩
    rw [hf, ← hline]

theorem close_eq_error {s : State} {p : Problem} (h : s.close = .error p) :
    p = .entryWithoutMsgstr ∨ p = .referencesWithoutMsgid := by
  unfold State.close at h
  split at h
  · split at h
    · cases h
    · cases h
      exact .inr rfl
  · cases h
  · split at h
    · cases h
    · cases h
      exact .inl rfl

/-- At the end an entry can be incomplete, and nothing else. -/
theorem finish_eq_error {s : State} {p : Problem} (h : s.finish = .error p) :
    p = .entryWithoutMsgstr ∨ p = .referencesWithoutMsgid := by
  unfold State.finish at h
  by_cases he : s.entry.isEmpty = true
  · rw [if_pos he] at h
    cases h
  · rw [if_neg he] at h
    exact close_eq_error h

/-! ## Faults are local -/

/-- A catalog can be read, or what is wrong is that it ends on line `n` with an
    entry that is incomplete. -/
def IncompleteAtMost (text : List Char) (n : Nat) : Prop :=
  (∃ s, parse text = .ok s) ∨ ∃ f, parse text = .error f ∧ f.line = n ∧
    (f.problem.message = "entry without msgstr" ∨ f.problem.message = "references without msgid")

/-- If the lines of a catalog can be read, only its end can be wrong. -/
theorem incompleteAtMost_of_reads {text : List Char} {s : State}
    (h : Reads {} (Text.lines text) s) : IncompleteAtMost text (Text.lines text).length := by
  cases hf : s.finish with
  | ok s' => exact .inl ⟨s'.store, parse_eq_ok_iff.2 ⟨s, s', h, hf, rfl⟩⟩
  | error p =>
    refine .inr ⟨⟨_, p⟩, parse_eq_error_iff.2 (.inr ⟨rfl, s, h, hf⟩), rfl, ?_⟩
    rcases finish_eq_error hf with rfl | rfl
    · exact .inl rfl
    · exact .inr rfl

/-- An end that fails has lines before it. -/
theorem lines_ne_nil_of_finish {text : List Char} {s : State} {p : Problem}
    (h : Reads {} (Text.lines text) s) (hf : s.finish = .error p) : Text.lines text ≠ [] := by
  intro hnil
  rw [hnil] at h
  cases h
  cases hf

/-- A fault is on one of the lines of a text. If it is not on the last one, every
    text with the same lines up to it has the same fault, and the lines before
    it, taken alone, can be read or are incomplete at their end. -/
theorem fault_local {text : List Char} {f : Fault} (h : parse text = .error f) :
    1 ≤ f.line ∧ f.line ≤ (Text.lines text).length ∧
    (f.line < (Text.lines text).length →
      (∀ text', (Text.lines text').take f.line = (Text.lines text).take f.line →
        parse text' = .error f) ∧
      IncompleteAtMost (Text.firstLines (f.line - 1) text) (f.line - 1)) := by
  rcases parse_eq_error_iff.1 h with ⟨i, hline, hfails⟩ | ⟨hline, s, hr, hf⟩
  · have hlt := hfails.lt_length
    refine ⟨by omega, by omega, fun _ => ⟨?_, ?_⟩⟩
    · intro text' hsame
      rw [hline, Nat.add_comm] at hsame
      exact parse_eq_error_iff.2 (.inl ⟨i, hline, hfails.of_take hsame⟩)
    · obtain ⟨s', hr⟩ := hfails.reads_take
      have hi : f.line - 1 = i := by omega
      rw [hi]
      rw [← Text.lines_firstLines] at hr
      have hlength : (Text.lines (Text.firstLines i text)).length = i := by
        rw [Text.lines_firstLines, List.length_take]
        omega
      have hend := incompleteAtMost_of_reads hr
      rwa [hlength] at hend
  · -- the end is reported on the last line, so that there is nothing behind it
    have hpos := List.length_pos_of_ne_nil (lines_ne_nil_of_finish hr hf)
    exact ⟨by omega, by omega, fun hlt => absurd hline (by omega)⟩

/-- A message behind one that was not finished. -/
def unfinished : List Char := "msgid \"a\"\nmsgid \"b\"\nmsgstr \"\"\n\"stray".toList

theorem fault_local_sample :
    parse unfinished = .error ⟨2, .msgidWithoutMsgstr⟩ ∧ 2 < (Text.lines unfinished).length ∧
    (∀ text', (Text.lines text').take 2 = (Text.lines unfinished).take 2 →
      parse text' = .error ⟨2, .msgidWithoutMsgstr⟩) ∧
    IncompleteAtMost (Text.firstLines 1 unfinished) 1 := by
  have h : parse unfinished = .error ⟨2, .msgidWithoutMsgstr⟩ := by decide +kernel
  have hlt : 2 < (Text.lines unfinished).length := by decide +kernel
  exact ⟨h, hlt, (fault_local h).2.2 hlt⟩

end MessageHarvest.Catalog
