import MessageHarvest.Proofs.Catalog.Line
import MessageHarvest.Proofs.Text.Trimming

/-! # Which strings are quoted strings

    Between its quotes a quoted string is a sequence of items: a character that
    stands for itself, or a backslash and any character. So whether the last
    quote closes the string is decided by the items before it, however many
    backslashes they end in.

    * `unescape?_items`, `exists_items_of_unescape?`: what stands between quotes
      is read item by item, and nothing else is read.
    * `unquote?_eq_some_iff`: the same with the quotes and the blanks around
      them.
    * `unquote?_quote_padded`: every text is read back from its written form. -/

namespace MessageHarvest.Catalog

/-! ## Items -/

/-- A part of what stands between quotes. -/
inductive Item where
  | plain (c : Char) (ne_quote : c ≠ '"') (ne_backslash : c ≠ '\\')
  | escaped (c : Char)

namespace Item

/-- How an item is written. -/
def spelling : Item → List Char
  | plain c _ _ => [c]
  | escaped c => ['\\', c]

/-- What an item stands for. -/
def meaning : Item → List Char
  | plain c _ _ => [c]
  | escaped c => unescapeChar c

theorem unescape?_spelling (i : Item) (t : List Char) :
    unescape? (i.spelling ++ t) = (unescape? t).map (i.meaning ++ ·) := by
  cases i with
  | plain c hquote hbackslash =>
    rw [spelling, List.singleton_append, unescape?]
    · rfl
    · exact fun _ _ h => absurd h hbackslash
    · exact fun h _ => hbackslash h
    · exact hquote
  | escaped c => rfl

end Item

section Reading

variable {t u token : List Char}

/-- Items are read one after the other. -/
theorem unescape?_items (items : List Item) :
    unescape? (items.flatMap Item.spelling) = some (items.flatMap Item.meaning) := by
  induction items with
  | nil => rfl
  | cons i items ih =>
    rw [List.flatMap_cons, i.unescape?_spelling, ih, List.flatMap_cons]
    rfl

/-- What is read is a sequence of items. -/
theorem exists_items_of_unescape? (h : unescape? t = some u) :
    ∃ items : List Item, t = items.flatMap Item.spelling ∧ u = items.flatMap Item.meaning := by
  fun_induction unescape? t generalizing u with
  | case1 =>
    cases h
    exact ⟨[], rfl, rfl⟩
  | case2 c t ih =>
    obtain ⟨v, hv, rfl⟩ := Option.map_eq_some_iff.1 h
    obtain ⟨items, rfl, rfl⟩ := ih hv
    exact ⟨.escaped c :: items, rfl, rfl⟩
  | case3 => cases h
  | case4 => cases h
  | case5 c t hescape hbackslash hquote ih =>
    obtain ⟨v, hv, rfl⟩ := Option.map_eq_some_iff.1 h
    obtain ⟨items, rfl, rfl⟩ := ih hv
    -- a backslash is taken by the cases before, alone or with what it escapes
    have hplain : c ≠ '\\' := by
      rintro rfl
      cases hr : items.flatMap Item.spelling with
      | nil => exact hbackslash rfl hr
      | cons d r => exact hescape d r rfl hr
    exact ⟨.plain c hquote hplain :: items, rfl, rfl⟩

/-- A quoted string is items between quotes, with blanks around them. -/
theorem unquote?_eq_some_iff : unquote? token = some u ↔ ∃ items : List Item,
    Text.trim token = '"' :: (items.flatMap Item.spelling ++ ['"']) ∧
      u = items.flatMap Item.meaning := by
  constructor
  · intro h
    unfold unquote? at h
    split at h
    · next t htoken =>
      split at h
      · next body hbody =>
        have ht : t = body.reverse ++ ['"'] := by
          rw [← List.reverse_reverse t, hbody, List.reverse_cons]
        obtain ⟨items, hitems, hu⟩ := exists_items_of_unescape? h
        exact ⟨items, by rw [htoken, ht, hitems], hu⟩
      · cases h
    · cases h
  · rintro ⟨items, htoken, rfl⟩
    unfold unquote?
    rw [htoken]
    simp [unescape?_items]

/-- Every text is read back from its written form, whatever blanks there are
    around it. -/
theorem unquote?_quote_padded {before after : List Char} (hbefore : Text.Blank before)
    (hafter : Text.Blank after) (t : List Char) :
    unquote? (before ++ quote t ++ after) = some t := by
  have htrim : Text.trim (before ++ quote t ++ after) = Text.trim (quote t) :=
    Text.trim_padded hbefore hafter
  have hquote := unquote?_quote t
  unfold unquote? at hquote ⊢
  rw [htrim, hquote]

end Reading

/-! ## Writing and reading -/

/-- **Quoting and unquoting.** Written text has no control characters that end
    or break a line, and is read back with any blanks around its quotes. A
    token is read if and only if, trimmed, it is a quote, items and a quote;
    then what it is read as is written in a form that is read the same. -/
theorem quoted_strings_exact :
    (∀ t, '\n' ∉ escape t ∧ '\r' ∉ escape t ∧ '\t' ∉ escape t) ∧
    (∀ t before after, Text.Blank before → Text.Blank after →
      unquote? (before ++ ('"' :: (escape t ++ ['"'])) ++ after) = some t) ∧
    (∀ token u, unquote? token = some u ↔ ∃ items : List Item,
      Text.trim token = '"' :: (items.flatMap Item.spelling ++ ['"']) ∧
        u = items.flatMap Item.meaning) ∧
    ∀ token u, unquote? token = some u →
      unquote? ('"' :: (escape u ++ ['"'])) = unquote? token := by
  refine ⟨fun t => ?_, fun t before after hbefore hafter => ?_, fun token u => ?_,
    fun token u h => ?_⟩
  · exact ⟨not_mem_escape (by decide) t, not_mem_escape (by decide) t, not_mem_escape (by decide) t⟩
  · exact unquote?_quote_padded hbefore hafter t
  · exact unquote?_eq_some_iff
  · rw [h]
    exact unquote?_quote u

/-- An escape that is not known and runs of backslashes before a quote. -/
theorem quoted_strings_exact_sample :
    unquote? "\t\"\\q\\\\\\\"\" ".toList = some "\\q\\\"".toList ∧
    unquote? ('"' :: (escape "\\q\\\"".toList ++ ['"'])) = some "\\q\\\"".toList ∧
    Text.Blank ['\u2003'] ∧
    unquote? (['\u2003'] ++ ('"' :: (escape "a\\\n".toList ++ ['"'])) ++ [' ']) =
      some "a\\\n".toList := by
  have hread : unquote? "\t\"\\q\\\\\\\"\" ".toList = some "\\q\\\"".toList := by decide
  refine ⟨hread, ?_, by decide, ?_⟩
  · rw [quoted_strings_exact.2.2.2 _ _ hread, hread]
  · exact quoted_strings_exact.2.1 _ _ _ (by decide) (by decide)

end MessageHarvest.Catalog
