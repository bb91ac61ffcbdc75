import MessageHarvest.Files.Discovery
import MessageHarvest.Proofs.Files.Path
import MessageHarvest.Proofs.Outcome

/-! # Reading wildcards

    A text without placeholders is a wildcard for itself, and a wildcard may
    stand behind such a text and a slash without being read differently. So the
    way to a wildcard below a root begins with the parts of the root.

    * `parse_below`: a wildcard below a plain root can be read.
    * `literal_of_parse`: a part without placeholders is looked up as it is
      spelled.
    * `legs_below`: the way below a root. -/

namespace MessageHarvest.Wildcard

/-- Whether a character stands for nothing but itself. -/
def isPlain (c : Char) : Bool := c != '?' && c != '*' && c != '['

section Read

variable {position : Nat} {fresh : Bool} {s t : List Char} {ks : List Token}

theorem read_cons_plain {c : Char} (hc : isPlain c = true) :
    read position fresh (c :: t) =
      read (position + 1) (c == '/') t >>= fun ks => .ok (.char c :: ks) := by
  simp only [isPlain, Bool.and_eq_true, bne_iff_ne] at hc
  obtain ⟨⟨hquestion, hstar⟩, hbracket⟩ := hc
  rw [read.eq_def]
  split
  · next e => cases e
  · next e => exact absurd (List.cons.inj e).1 hquestion
  · next e => exact absurd (List.cons.inj e).1 hstar
  · next e => exact absurd (List.cons.inj e).1 hstar
  · next e => exact absurd (List.cons.inj e).1 hstar
  · next e => exact absurd (List.cons.inj e).1 hbracket
  · next e =>
    cases e
    rfl

/-- What is read does not depend on where it stands. -/
theorem read_position (other : Nat) (h : read position fresh t = .ok ks) :
    read other fresh t = .ok ks := by
  fun_induction read position fresh t generalizing ks other with
  | case1 => simpa [read] using h
  | case2 position fresh t ih =>
    obtain ⟨ks', hks, h⟩ := bind_eq_ok_iff.1 h
    rw [read, ih _ hks]
    exact h
  | case3 => cases h
  | case4 => cases h
  | case5 position fresh hfresh =>
    rw [read, if_neg hfresh]
    exact h
  | case6 position fresh hfresh t _ ih =>
    obtain ⟨ks', hks, h⟩ := bind_eq_ok_iff.1 h
    rw [read, if_neg hfresh, ih _ hks]
    exact h
  | case7 => cases h
  | case8 position fresh t hstars hstar ih =>
    obtain ⟨ks', hks, h⟩ := bind_eq_ok_iff.1 h
    rw [read, ih _ hks]
    · exact h
    · exact hstars
    · exact hstar
  | case9 => cases h
  | case10 position fresh t k rest hset _ ih =>
    obtain ⟨ks', hks, h⟩ := bind_eq_ok_iff.1 h
    rw [read]
    split
    · next hnone =>
      rw [hset] at hnone
      cases hnone
    · next k' rest' hset' =>
      rw [hset] at hset'
      cases hset'
      rw [ih _ hks]
      exact h
  | case11 position fresh c t hquestion _ _ hstar hbracket ih =>
    obtain ⟨ks', hks, h⟩ := bind_eq_ok_iff.1 h
    have hplain : isPlain c = true := by
      simp only [isPlain, Bool.and_eq_true, bne_iff_ne]
      exact ⟨⟨hquestion, hstar⟩, hbracket⟩
    rw [read_cons_plain hplain, ih _ hks]
    exact h

/-- A plain text is read as its characters, and what stands behind it as it
    would be alone. -/
theorem read_append (hs : ∀ c ∈ s, isPlain c = true) (hend : s.getLast? = some '/')
    (h : read position true t = .ok ks) (other : Nat) :
    read other fresh (s ++ t) = .ok (s.map .char ++ ks) := by
  induction s generalizing other fresh with
  | nil => cases hend
  | cons c s ih =>
    rw [List.cons_append, read_cons_plain (hs c List.mem_cons_self)]
    by_cases hnil : s = []
    · subst hnil
      have hslash : c = '/' := by simpa using hend
      subst hslash
      show read (other + 1) true t >>= _ = _
      rw [read_position (other + 1) h]
      rfl
    · have hlast : s.getLast? = some '/' := by
        rw [List.getLast?_cons_of_ne_nil hnil] at hend
        exact hend
      rw [ih (fun d hd => hs d (List.mem_cons_of_mem c hd)) hlast]
      rfl

/-- A plain text is read as its characters. -/
theorem read_plain (hs : ∀ c ∈ s, isPlain c = true) :
    read position fresh s = .ok (s.map .char) := by
  induction s generalizing position fresh with
  | nil => simp [read]
  | cons c s ih =>
    rw [read_cons_plain (hs c List.mem_cons_self), ih fun d hd => hs d (List.mem_cons_of_mem c hd)]
    rfl

/-- Sets of characters are no text. -/
theorem literalTokens?_of_set? {k : Token} {rest : List Char} (h : set? t = some (k, rest)) :
    literalTokens? (k :: ks) = none := by
  unfold set? at h
  split at h
  · obtain ⟨cut, -, h⟩ := Option.map_eq_some_iff.1 h
    cases h
    rfl
  · cases h
  · obtain ⟨cut, -, h⟩ := Option.map_eq_some_iff.1 h
    cases h
    rfl
  · cases h

/-- What is read as a text is that text. -/
theorem eq_of_literalTokens? (h : read position fresh t = .ok ks) {u : List Char}
    (hu : literalTokens? ks = some u) : u = t := by
  fun_induction read position fresh t generalizing ks u with
  | case1 =>
    cases h
    cases hu
    rfl
  | case2 =>
    obtain ⟨ks', -, h⟩ := bind_eq_ok_iff.1 h
    cases h
    cases hu
  | case3 => cases h
  | case4 => cases h
  | case5 =>
    cases h
    cases hu
  | case6 =>
    obtain ⟨ks', -, h⟩ := bind_eq_ok_iff.1 h
    cases h
    cases hu
  | case7 => cases h
  | case8 =>
    obtain ⟨ks', -, h⟩ := bind_eq_ok_iff.1 h
    cases h
    cases hu
  | case9 => cases h
  | case10 position fresh t k rest hset =>
    obtain ⟨ks', -, h⟩ := bind_eq_ok_iff.1 h
    cases h
    rw [literalTokens?_of_set? hset] at hu
    cases hu
  | case11 position fresh c t _ _ _ _ _ ih =>
    obtain ⟨ks', hks, h⟩ := bind_eq_ok_iff.1 h
    cases h
    obtain ⟨u', hu', rfl⟩ := Option.map_eq_some_iff.1 hu
    rw [ih hks hu']

end Read

/-! ## Plain texts -/

section Plain

variable {s t : List Char} {w : Wildcard}

/-- The wildcard that stands for one text. -/
def exactly (s : List Char) : Wildcard := ⟨s.map .char⟩

theorem parse_plain (hs : ∀ c ∈ s, isPlain c = true) : parse s = .ok (exactly s) := by
  rw [parse, read_plain hs]
  rfl

/-- A wildcard below a plain root can be read. -/
theorem parse_below (hs : ∀ c ∈ s, isPlain c = true) (hend : s.getLast? = some '/')
    (h : parse t = .ok w) : ∃ w', parse (s ++ t) = .ok w' := by
  obtain ⟨ks, hks, -⟩ := bind_eq_ok_iff.1 h
  refine ⟨⟨s.map .char ++ ks⟩, ?_⟩
  rw [parse, read_append hs hend hks]
  rfl

/-- A part without placeholders is looked up as it is spelled. -/
theorem literal_of_parse (h : parse t = .ok w) (hs : w.literal? = some s) : s = t := by
  obtain ⟨ks, hks, hw⟩ := bind_eq_ok_iff.1 h
  cases hw
  exact eq_of_literalTokens? hks hs

theorem literal?_exactly (s : List Char) : (exactly s).literal? = some s := by
  unfold exactly literal?
  induction s with
  | nil => rfl
  | cons c s ih =>
    dsimp only at ih
    simp [literalTokens?, ih]

theorem isRecursive_exactly (s : List Char) : (exactly s).isRecursive = false := by
  simp [exactly, isRecursive]

end Plain

/-! ## Ways -/

section Ways

variable {ws : List Wildcard} {roots : List (List Char)}

/-- The way to wildcards behind plain parts begins with these parts. -/
theorem legs_below (roots : List (List Char)) (ws : List Wildcard) :
    legs (roots.map exactly ++ ws) =
      (roots.map fun s => Leg.name (String.ofList s)) ++ legs ws := by
  induction roots with
  | nil => rfl
  | cons s roots ih =>
    have hleg : Leg.ofWildcard (exactly s) = .name (String.ofList s) := by
      rw [Leg.ofWildcard, literal?_exactly]
    rw [List.map_cons, List.cons_append, List.map_cons, List.cons_append, ← ih]
    cases roots.map exactly ++ ws with
    | nil =>
      show [Leg.ofWildcard (exactly s)] = _
      rw [hleg]
      rfl
    | cons v vs =>
      rw [legs, isRecursive_exactly, hleg]
      rfl

/-- The wildcards of a text whose first parts are plain. -/
theorem ofParts_below (hroots : ∀ s ∈ roots, ∀ c ∈ s, isPlain c = true) {t u : List Char}
    (hparts : Path.parts u = roots ++ Path.parts t) :
    ofParts u = (ofParts t).map (roots.map exactly ++ ·) := by
  have hplain : roots.mapM parse = .ok (roots.map exactly) := by
    clear hparts
    induction roots with
    | nil => rfl
    | cons s roots ih =>
      rw [List.mapM_cons, parse_plain (hroots s List.mem_cons_self),
        ih fun s' hs' => hroots s' (List.mem_cons_of_mem s hs')]
      rfl
  -- only the last part may be left out, and that is one of the parts of `t`
  have hne : Path.parts t ≠ [] := Text.fields_ne_nil _ t
  have hkept :
      (if (Path.parts u).getLast? = some [] then (Path.parts u).dropLast else Path.parts u) =
      roots ++ if (Path.parts t).getLast? = some [] then (Path.parts t).dropLast
        else Path.parts t := by
    have hlast : (roots ++ Path.parts t).getLast? = (Path.parts t).getLast? := by
      rw [List.getLast?_append, List.getLast?_eq_some_getLast hne]
      rfl
    rw [hparts, hlast, List.dropLast_append_of_ne_nil hne]
    split
    · rfl
    · rfl
  unfold ofParts
  dsimp only
  rw [hkept, List.mapM_append, hplain]
  generalize List.mapM parse _ = rest
  cases rest with
  | error f => rfl
  | ok ws => rfl

/-- Every leg comes from a wildcard, unless it reaches into directories of any
    depth. -/
theorem mem_legs {l : Leg} (h : l ∈ legs ws) :
    (∃ w ∈ ws, l = .ofWildcard w) ∨ ∃ v?, l = .deep v? := by
  fun_induction legs ws with
  | case1 => cases h
  | case2 w =>
    rw [List.mem_singleton] at h
    exact .inl ⟨w, List.mem_cons_self, h⟩
  | case3 w v ws _ ih =>
    rcases List.mem_cons.1 h with h | h
    · exact .inl ⟨w, List.mem_cons_self, h⟩
    · refine (ih h).imp_left ?_
      rintro ⟨u, hu, hl⟩
      exact ⟨u, List.mem_cons_of_mem w hu, hl⟩
  | case4 w v ws _ _ ih =>
    refine (ih h).imp_left ?_
    rintro ⟨u, hu, hl⟩
    exact ⟨u, List.mem_cons_of_mem w hu, hl⟩
  | case5 w v ws _ _ ih =>
    rcases List.mem_cons.1 h with h | h
    · exact .inr ⟨some v, h⟩
    · refine (ih h).imp_left ?_
      rintro ⟨u, hu, hl⟩
      exact ⟨u, List.mem_cons_of_mem w (List.mem_cons_of_mem v hu), hl⟩

end Ways

end MessageHarvest.Wildcard
