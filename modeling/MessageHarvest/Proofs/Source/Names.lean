import MessageHarvest.Proofs.Source.Naming

/-! # Dotted names

    The names of packages, imports and annotations are read off the text of the
    source. What is read is the identifiers with dots in between exactly if there
    is no comment among the tokens:

    * `packageName?_eq_iff`, `ImportOf.importedType?_eq_iff` and
      `annotationOf_name_iff` for one declaration or annotation.
    * `Source.named_of_parse` for all of a source that can be read. -/

namespace MessageHarvest

/-! ## What is read off one of them -/

namespace Tree

variable {r : Option Role} {k : Kind} {cs : List Tree} {ns : List (List Char)} {name : Tree}

theorem tokensList_eq (cs : List Tree) : tokensList cs = cs.flatMap tokens := by
  induction cs with
  | nil => rfl
  | cons c cs ih => rw [tokensList, ih, List.flatMap_cons]

theorem Spelled.sound {t : Tree} (h : t.Spelled) : ∀ u ∈ t.tokens, u.Sound := by
  induction h with
  | leaf ht => exact List.forall_mem_singleton.2 ht
  | node _ _ ih =>
    intro u hu
    rw [tokens, tokensList_eq] at hu
    obtain ⟨c, hc, hu⟩ := List.mem_flatMap.1 hu
    exact ih c hc u hu

theorem text_of_tokens {t : Tree} {u : Token} {us : List Token} (h : t.tokens = u :: us) :
    t.text = u.text ++ spell us := by
  rw [text, h]

/-- Identifiers with dots in between, in a row. -/
def joined (ns : List (List Char)) : List Char := Text.join ['.'] ns

theorem joined_concat {ns : List (List Char)} (h : ns ≠ []) (w : List Char) :
    joined (ns ++ [w]) = joined ns ++ '.' :: w := by
  induction ns with
  | nil => exact absurd rfl h
  | cons n ns ih =>
    cases ns with
    | nil => simp [joined, Text.join]
    | cons n' ns =>
      have hrest := ih (List.cons_ne_nil _ _)
      simp only [joined, List.cons_append, Text.join, List.append_assoc] at hrest ⊢
      rw [hrest]

/-- A dotted name is its tokens in a row, which are words and dots. -/
theorem Dotted.spelling (h : Dotted ns name) :
    ns ≠ [] ∧ name.tokens ≠ [] ∧
      (∀ u ∈ name.tokens, u.kind = .word ∨ (u.kind = .symbol ∧ u.text = ['.'])) ∧
      Token.spelling name.tokens = joined ns := by
  induction h with
  | @simple r w hw =>
    refine ⟨List.cons_ne_nil _ _, List.cons_ne_nil _ _, List.forall_mem_singleton.2 (.inl hw), ?_⟩
    simp [tokens, tokensList, Token.spelling, joined, Text.join]
  | @qualified r ns n d w _ hd hw ih =>
    obtain ⟨hns, htokens, hparts, hspelling⟩ := ih
    obtain ⟨hkind, htext⟩ := Grammar.isSymbol_iff.1 hd
    have hrow : (Tree.node r .scopedIdentifier
        [n, .leaf none d, .node none .identifier [.leaf none w]]).tokens = n.tokens ++ [d, w] := by
      simp [tokens, tokensList]
    rw [hrow, Token.spelling_append, hspelling, joined_concat hns]
    refine ⟨by simp, by simp, List.forall_mem_append.2 ⟨hparts, ?_⟩, ?_⟩
    · exact List.forall_mem_cons.2 ⟨.inr ⟨hkind, htext⟩, List.forall_mem_singleton.2 (.inl hw)⟩
    · simp [Token.spelling, htext]

theorem Dotted.parts (h : Dotted ns name) (hsound : ∀ u ∈ name.tokens, u.Sound) :
    ∀ u ∈ name.tokens, u.Sound ∧ u.IsPart := by
  intro u hu
  exact ⟨hsound u hu, (h.spelling.2.2.1 u hu).imp_right fun ⟨hkind, htext⟩ => ⟨hkind, .inl htext⟩⟩

/-- A dotted name is not empty, and no asterisk stands in it. -/
theorem Dotted.joined_ne (h : Dotted ns name) (hsound : ∀ u ∈ name.tokens, u.Sound) :
    joined ns ≠ [] ∧ '*' ∉ joined ns := by
  obtain ⟨-, htokens, hparts, hspelling⟩ := h.spelling
  rw [← hspelling]
  constructor
  · obtain ⟨u, hu⟩ := List.exists_mem_of_ne_nil _ htokens
    intro hempty
    have htext : u.text = [] := List.flatMap_eq_nil_iff.1 hempty u hu
    rcases hparts u hu with hword | ⟨-, hdot⟩
    · exact ((hsound u hu).word hword).1 htext
    · rw [hdot] at htext
      cases htext
  · intro hstar
    obtain ⟨u, hu, hstar⟩ := List.mem_flatMap.1 hstar
    rcases hparts u hu with hword | ⟨-, hdot⟩
    · exact absurd (((hsound u hu).word hword).2 '*' hstar) (by decide +kernel)
    · rw [hdot] at hstar
      exact absurd hstar (by decide)

/-- Without its blanks, a dotted name is its identifiers with dots in between
    exactly if there is no comment in it. -/
theorem Dotted.compact_text_iff (h : Dotted ns name) (hsound : ∀ u ∈ name.tokens, u.Sound) :
    Text.compact name.text = joined ns ↔ Token.Plain name.tokens.tail := by
  obtain ⟨-, htokens, -, hspelling⟩ := h.spelling
  have hparts := h.parts hsound
  cases hrow : name.tokens with
  | nil => exact absurd hrow htokens
  | cons u us =>
    rw [text_of_tokens hrow, ← hspelling, hrow]
    exact Token.compact_text_iff (hrow ▸ hparts)

/-! ### Packages -/

/-- Whether a tree is a name by its kind. -/
def isName (t : Tree) : Bool := t.kind? = some .scopedIdentifier || t.kind? = some .identifier

/-- A package declaration has one child that is a name. -/
theorem find?_isName {front : List Tree} (hfront : ∀ c ∈ front, c.IsAnnotationForm)
    (hname : Dotted ns name) (p q : Token) :
    (front ++ [.leaf none p, name, .leaf none q]).find? isName = some name := by
  have hskip : front.find? isName = none := by
    rw [List.find?_eq_none]
    intro c hc
    obtain ⟨x, hx, hform⟩ := hfront c hc
    rw [isName, hx]
    cases x <;> first | decide | cases hform
  rw [List.find?_append, hskip]
  cases hname <;> rfl

theorem packageName?_eq {front : List Tree} {p q : Token}
    (hfront : ∀ c ∈ front, c.IsAnnotationForm) (hname : Dotted ns name) :
    (Tree.node r k (front ++ [.leaf none p, name, .leaf none q])).packageName? =
      some (String.ofList (Text.compact name.text)) := by
  have hfind := find?_isName hfront hname p q
  unfold isName at hfind
  rw [packageName?, children, hfind, Option.map_some]

theorem ofList_eq_iff {s t : List Char} :
    some (String.ofList s) = some (String.ofList t) ↔ s = t := by
  rw [Option.some.injEq, String.ofList_inj]

theorem packageName?_eq_iff {front : List Tree} {p q : Token}
    (hfront : ∀ c ∈ front, c.IsAnnotationForm) (hname : Dotted ns name)
    (hsound : ∀ u ∈ name.tokens, u.Sound) :
    (Tree.node r k (front ++ [.leaf none p, name, .leaf none q])).packageName? =
      some (String.ofList (joined ns)) ↔ Token.Plain name.tokens.tail := by
  rw [packageName?_eq hfront hname, ofList_eq_iff, hname.compact_text_iff hsound]

/-! ### Imports -/

/-- What an import names, with or without `.*`: its text between the keyword and
    the semicolon, without blanks. -/
def importBody (t : Tree) : List Char :=
  Text.compact ((((Text.dropStart? "import".toList t.text).getD t.text).reverse.dropWhile
    (· == ';')).reverse)

theorem importedType?_eq {t : Tree} (h : t.isStaticImport = false) :
    t.importedType? = if t.importBody.isEmpty || t.importBody.getLast? = some '*' then none
      else some (String.ofList t.importBody) := by
  rw [importedType?, h]
  rfl

theorem dropTrailing_eq {t : List Char} (h : ';' ∉ t) :
    ((t ++ [';']).reverse.dropWhile (· == ';')).reverse = t := by
  rw [List.reverse_append, List.reverse_singleton, List.singleton_append,
    List.dropWhile_cons_of_pos (by rfl), List.dropWhile_eq_self_iff.2, List.reverse_reverse]
  intro hlength heq
  refine h ?_
  rw [← beq_iff_eq.1 heq]
  exact List.mem_reverse.1 (List.getElem_mem _)

theorem mem_dropTrailing {t : List Char} {c : Char} (hc : c ≠ ';') (h : c ∈ t) :
    c ∈ (t.reverse.dropWhile (· == ';')).reverse := by
  have hsplit := List.takeWhile_append_dropWhile (p := (· == ';')) (l := t.reverse)
  have hmem : c ∈ t.reverse.takeWhile (· == ';') ++ t.reverse.dropWhile (· == ';') := by
    rw [hsplit]
    exact List.mem_reverse.2 h
  rcases List.mem_append.1 hmem with h | h
  · exact absurd (beq_iff_eq.1 (List.mem_takeWhile_imp (p := (· == ';')) h)) hc
  · exact List.mem_reverse.2 h

/-- The tokens of an import. -/
theorem ImportOf.tokens {static demand : List Tree} (h : ImportOf static name demand cs) :
    ∃ p q : Token, tokensList cs =
        p :: (tokensList static ++ (name.tokens ++ tokensList demand) ++ [q]) ∧
      p.text = "import".toList ∧ q.kind = .symbol ∧ q.text = [';'] := by
  obtain ⟨hk, -, -, hs⟩ := h
  obtain ⟨hkind, htext⟩ := Grammar.isSymbol_iff.1 hs
  refine ⟨_, _, ?_, (Grammar.isWord_iff.1 hk).2, hkind, htext⟩
  simp [tokensList_eq, Tree.tokens]

theorem ImportOf.isPart {static demand : List Tree} (h : ImportOf static name demand cs) :
    ∀ u ∈ tokensList demand, u.IsPart := by
  obtain ⟨-, -, rfl | ⟨d, a, rfl, hd, ha⟩, -⟩ := h
  · exact List.forall_mem_nil _
  · obtain ⟨hdkind, hdtext⟩ := Grammar.isSymbol_iff.1 hd
    obtain ⟨hakind, hatext⟩ := Grammar.isSymbol_iff.1 ha
    have hrow : tokensList [.leaf none d, .node none .asterisk [.leaf none a]] = [d, a] := rfl
    rw [hrow]
    exact List.forall_mem_cons.2 ⟨.inr ⟨hdkind, .inl hdtext⟩,
      List.forall_mem_singleton.2 (.inr ⟨hakind, .inr hatext⟩)⟩

/-- Whether a child of an import makes it static. -/
def isStaticWord : Tree → Bool
  | leaf _ u => u.text = "static".toList
  | node .. => false

theorem isStaticImport_eq (t : Tree) : t.isStaticImport = t.children.any isStaticWord := by
  refine congrArg t.children.any (funext fun c => ?_)
  cases c <;> rfl

/-- Only the word behind the keyword can make an import static. -/
theorem ImportOf.isStaticImport {static demand : List Tree} (h : ImportOf static name demand cs)
    (hname : Dotted ns name) :
    (Tree.node r k cs).isStaticImport = !static.isEmpty := by
  obtain ⟨hkeyword, hstatic, hdemand, hsemicolon⟩ := h
  have hstatic : static.any isStaticWord = !static.isEmpty := by
    rcases hstatic with rfl | ⟨w, rfl, hw⟩
    · rfl
    · simp [isStaticWord, (Grammar.isWord_iff.1 hw).2]
  have hname : name.isStaticWord = false := by
    cases hname <;> rfl
  have hdemand : demand.any isStaticWord = false := by
    rcases hdemand with rfl | ⟨d, a, rfl, hd, -⟩
    · rfl
    · simp [isStaticWord, (Grammar.isSymbol_iff.1 hd).2]
  rw [isStaticImport_eq, children, List.any_cons, List.any_append, List.any_cons, List.any_append,
    hstatic, hname, hdemand]
  simp [isStaticWord, (Grammar.isWord_iff.1 hkeyword).2, (Grammar.isSymbol_iff.1 hsemicolon).2]

theorem spell_concat (ts : List Token) (u : Token) :
    spell (ts ++ [u]) = spell ts ++ u.lead ++ u.text := by
  simp [spell]

/-- The text of an import that is not static, behind its keyword. -/
theorem ImportOf.importBody {demand : List Tree} (h : ImportOf [] name demand cs) :
    ∃ q : Token, (Tree.node r k cs).tokens.tail = name.tokens ++ tokensList demand ++ [q] ∧
      q.kind = .symbol ∧ q.text = [';'] ∧ (Tree.node r k cs).importBody = Text.compact
        ((spell (name.tokens ++ tokensList demand) ++ q.lead ++ [';']).reverse.dropWhile
          (· == ';')).reverse := by
  obtain ⟨p, q, htokens, hp, hqkind, hq⟩ := h.tokens
  have hrow : (Tree.node r k cs).tokens = p :: (name.tokens ++ tokensList demand ++ [q]) := htokens
  refine ⟨q, by rw [hrow]; rfl, hqkind, hq, ?_⟩
  rw [Tree.importBody, text_of_tokens hrow, hp, Text.dropStart?_append, Option.getD_some,
    spell_concat, hq]

section Imports

variable {demand : List Tree} (h : ImportOf [] name demand cs) (hname : Dotted ns name)
  (hsound : ∀ u ∈ (Tree.node r k cs).tokens, u.Sound)

include h hname hsound

/-- The tokens between the keyword and the semicolon. -/
theorem ImportOf.parts : (∀ u ∈ name.tokens, u.Sound) ∧
    ∀ u ∈ name.tokens ++ tokensList demand, u.Sound ∧ u.IsPart := by
  obtain ⟨q, hrow, -, -, -⟩ := h.importBody (r := r) (k := k)
  have hall : ∀ u ∈ name.tokens ++ tokensList demand, u.Sound := by
    intro u hu
    refine hsound u (List.mem_of_mem_tail ?_)
    rw [hrow]
    exact List.mem_append_left _ hu
  obtain ⟨hnames, hdemand⟩ := List.forall_mem_append.1 hall
  refine ⟨hnames, List.forall_mem_append.2 ⟨hname.parts hnames, fun u hu => ?_⟩⟩
  exact ⟨hdemand u hu, h.isPart u hu⟩

/-- Without comments, an import names its tokens in a row. -/
theorem ImportOf.importBody_of_plain (hplain : Token.Plain (Tree.node r k cs).tokens.tail) :
    (Tree.node r k cs).importBody = joined ns ++ Token.spelling (tokensList demand) := by
  have hparts := (h.parts hname hsound).2
  obtain ⟨q, hrow, hqkind, -, hbody⟩ := h.importBody (r := r) (k := k)
  rw [hrow] at hplain
  obtain ⟨hplain, hlead⟩ := List.forall_mem_append.1 hplain
  have hqsound : q.Sound := by
    refine hsound q (List.mem_of_mem_tail ?_)
    rw [hrow]
    exact List.mem_append_right _ List.mem_cons_self
  have hcompact : Text.compact q.lead = [] :=
    Token.compact_lead hqsound (by simp [hqkind]) (hlead q List.mem_cons_self)
  have hspell := Token.compact_spell hparts hplain
  -- a semicolon is no blank, so there would be one in the name
  have hsemicolon : ';' ∉ spell (name.tokens ++ tokensList demand) ++ q.lead := by
    intro hmem
    have hmem : ';' ∈ Text.compact (spell (name.tokens ++ tokensList demand) ++ q.lead) :=
      List.mem_filter.2 ⟨hmem, rfl⟩
    rw [Text.compact_append, hspell, hcompact, List.append_nil] at hmem
    exact absurd (Token.isNameChar_spelling hparts ';' hmem) (by decide +kernel)
  rw [hbody, dropTrailing_eq hsemicolon, Text.compact_append, hspell, hcompact, List.append_nil,
    Token.spelling_append, hname.spelling.2.2.2]

omit hname hsound in
/-- With a comment, an import names something that is no name. -/
theorem ImportOf.slash_mem_importBody (hplain : ¬ Token.Plain (Tree.node r k cs).tokens.tail) :
    '/' ∈ (Tree.node r k cs).importBody := by
  obtain ⟨q, hrow, -, hq, hbody⟩ := h.importBody (r := r) (k := k)
  rw [hrow] at hplain
  -- neither dropping semicolons nor dropping blanks drops a slash
  obtain ⟨hslash, hblank⟩ := List.mem_filter.1 (Token.slash_mem_compact_spell hplain)
  rw [hbody]
  refine List.mem_filter.2 ⟨mem_dropTrailing (by decide) ?_, hblank⟩
  rwa [spell_concat, hq] at hslash

/-- Without comments, a single-type import names the type, and an import on
    demand names none. -/
theorem ImportOf.importedType?_of_plain
    (hplain : Token.Plain (Tree.node r k cs).tokens.tail) :
    (Tree.node r k cs).importedType? =
      if demand.isEmpty then some (String.ofList (joined ns)) else none := by
  have hstatic : (Tree.node r k cs).isStaticImport = false := h.isStaticImport hname
  rw [importedType?_eq hstatic, h.importBody_of_plain hname hsound hplain]
  obtain ⟨hne, hstar⟩ := hname.joined_ne (h.parts hname hsound).1
  obtain ⟨-, -, rfl | ⟨d, a, rfl, hd, ha⟩, -⟩ := h
  · have hlast : (joined ns).getLast? ≠ some '*' := fun hlast => hstar (List.mem_of_getLast? hlast)
    simp [tokensList, Token.spelling, hne, hlast]
  · simp [tokensList, Tree.tokens, Token.spelling, (Grammar.isSymbol_iff.1 ha).2]

theorem ImportOf.importedType?_eq_iff (hdemand : demand = []) :
    (Tree.node r k cs).importedType? = some (String.ofList (joined ns)) ↔
      Token.Plain (Tree.node r k cs).tokens.tail := by
  subst hdemand
  constructor
  · intro hread
    by_contra hplain
    have hslash := h.slash_mem_importBody hplain
    have hparts := hname.parts (h.parts hname hsound).1
    have hstatic : (Tree.node r k cs).isStaticImport = false := h.isStaticImport hname
    rw [importedType?_eq hstatic] at hread
    split at hread
    · cases hread
    · rw [ofList_eq_iff.1 hread, ← hname.spelling.2.2.2] at hslash
      exact Token.slash_not_mem_spelling hparts hslash
  · intro hplain
    rw [h.importedType?_of_plain hname hsound hplain]
    rfl

end Imports

/-! ### Annotations -/

theorem annotationOf_name {p : Token} {rest : List Tree} (hrole : name.role = some .name)
    (l : Nat) : (Meaning.annotationOf l (meanings (.leaf none p :: name :: rest))).name =
      String.ofList (Text.compact name.text) := by
  have hchild : child? .name (.leaf none p :: name :: rest) = some name := by
    simp [child?, hrole]
  simp [Meaning.annotationOf, Annotation.name, find?_meanings, hchild, Meaning.text]

theorem annotationOf_name_iff {p : Token} {rest : List Tree} (hrole : name.role = some .name)
    (hname : Dotted ns name) (hsound : ∀ u ∈ name.tokens, u.Sound) (l : Nat) :
    (Meaning.annotationOf l (meanings (.leaf none p :: name :: rest))).name =
      String.ofList (joined ns) ↔ Token.Plain name.tokens.tail := by
  rw [annotationOf_name hrole, String.ofList_inj, hname.compact_text_iff hsound]

/-! ## The names in a source -/

mutual

/-- A tree and the trees in it, but for those in children that `skip` says. -/
def partsBy (skip : Kind → Tree → Bool) : Tree → List Tree
  | leaf r t => [leaf r t]
  | node r k cs => node r k cs :: partsByIn skip k cs

/-- The same for the children of a node of kind `k`. -/
def partsByIn (skip : Kind → Tree → Bool) (k : Kind) : List Tree → List Tree
  | [] => []
  | c :: cs => (if skip k c then [] else c.partsBy skip) ++ partsByIn skip k cs

end

/-- All trees in a tree. -/
abbrev parts (t : Tree) : List Tree := t.partsBy fun _ _ => false

/-- The trees in a tree outside the places that the extraction model leaves out. -/
abbrev shown (t : Tree) : List Tree := t.partsBy hides

theorem mem_partsByIn {skip : Kind → Tree → Bool} {n : Tree} :
    n ∈ partsByIn skip k cs ↔ ∃ c ∈ cs, skip k c = false ∧ n ∈ c.partsBy skip := by
  induction cs with
  | nil => simp [partsByIn]
  | cons c cs ih => cases h : skip k c <;> simp [partsByIn, ih, h]

theorem Spelled.partsBy {skip : Kind → Tree → Bool} {t : Tree} (h : t.Spelled) :
    ∀ n ∈ t.partsBy skip, n.Spelled := by
  induction h with
  | leaf ht => exact List.forall_mem_singleton.2 (.leaf ht)
  | node hnaming hcs ih =>
    refine List.forall_mem_cons.2 ⟨.node hnaming hcs, fun n hn => ?_⟩
    obtain ⟨c, hc, -, hn⟩ := mem_partsByIn.1 hn
    exact ih c hc n hn

/-- The tokens that the name of a package declaration, of an import or of an
    annotation is read off. A static import names no type. -/
def nameTokens (t : Tree) : List Token :=
  match t.kind? with
  | some .packageDeclaration => ((t.children.find? isName).map tokens).getD []
  | some .importDeclaration => if t.isStaticImport then [] else t.tokens
  | _ => ((child? .name t.children).map tokens).getD []

theorem eq_node_of_kind? {t : Tree} (h : t.kind? = some k) : ∃ r cs, t = .node r k cs := by
  cases t with
  | leaf r u => cases h
  | node r k' cs =>
    cases h
    exact ⟨r, cs, rfl⟩

/-- The parts of an annotation. -/
theorem Spelled.annotated (h : (Tree.node r k cs).Spelled) (hk : k.isAnnotationForm = true) :
    ∃ p name rest ns, cs = .leaf none p :: name :: rest ∧ name.role = some .name ∧
      Dotted ns name ∧ (∀ u ∈ name.tokens, u.Sound) ∧
      (Tree.node r k cs).nameTokens = name.tokens := by
  cases h with
  | node hnaming hcs =>
    have hnaming : Naming .annotationForm cs := by
      obtain rfl | rfl := eq_or_eq_of_isAnnotationForm hk
      · exact hnaming
      · exact hnaming
    have htokens : (Tree.node r k cs).nameTokens =
        ((child? .name cs).map Tree.tokens).getD [] := by
      obtain rfl | rfl := eq_or_eq_of_isAnnotationForm hk
      · rfl
      · rfl
    obtain ⟨p, name, rest, ns, rfl, hrole, hdotted⟩ := hnaming
    have hchild : child? .name (.leaf none p :: name :: rest) = some name := by
      simp [child?, hrole]
    refine ⟨p, name, rest, ns, rfl, hrole, hdotted, (hcs name (by simp)).sound, ?_⟩
    rw [htokens, hchild]
    rfl

/-- The parts of a package declaration. -/
theorem Spelled.package (h : (Tree.node r .packageDeclaration cs).Spelled) :
    ∃ front p name q ns, cs = front ++ [Tree.leaf none p, name, .leaf none q] ∧
      (∀ c ∈ front, c.IsAnnotationForm) ∧ Dotted ns name ∧ (∀ u ∈ name.tokens, u.Sound) ∧
      (Tree.node r .packageDeclaration cs).nameTokens = name.tokens := by
  cases h with
  | node hnaming hcs =>
    obtain ⟨front, p, name, q, ns, rfl, hfront, hdotted⟩ := hnaming
    refine ⟨front, p, name, q, ns, rfl, hfront, hdotted, (hcs name (by simp)).sound, ?_⟩
    have hfind := find?_isName hfront hdotted p q
    simp only [nameTokens, kind?, children, hfind, Option.map_some, Option.getD_some]

/-- The parts of an import. -/
theorem Spelled.imported (h : (Tree.node r .importDeclaration cs).Spelled) :
    ∃ static name demand ns, ImportOf static name demand cs ∧ Dotted ns name ∧
      (static = [] → (Tree.node r .importDeclaration cs).nameTokens =
        (Tree.node r .importDeclaration cs).tokens) := by
  cases h with
  | node hnaming hcs =>
    obtain ⟨static, name, demand, ns, himport, hdotted⟩ := hnaming
    refine ⟨static, name, demand, ns, himport, hdotted, fun hstatic => ?_⟩
    have hnot : (Tree.node r .importDeclaration cs).isStaticImport = false := by
      rw [himport.isStaticImport hdotted, hstatic]
      rfl
    rw [nameTokens, kind?, hnot]
    rfl

/-- What is read off a node with a name: its identifiers with dots in between
    exactly if there is no comment in the name. -/
structure Named (n : Tree) : Prop where
  package : n.kind? = some .packageDeclaration → ∃ name ∈ n.children, ∃ ns, Dotted ns name ∧
    (n.packageName? = some (String.ofList (joined ns)) ↔ Token.Plain n.nameTokens.tail)
  imported : n.kind? = some .importDeclaration → ∃ static name demand ns,
    ImportOf static name demand n.children ∧ Dotted ns name ∧
      (static ≠ [] → n.importedType? = none) ∧
      (static = [] → demand = [] →
        (n.importedType? = some (String.ofList (joined ns)) ↔ Token.Plain n.nameTokens.tail))
  annotated : n.IsAnnotationForm → ∃ name, child? .name n.children = some name ∧
    ∃ ns, Dotted ns name ∧
      ((Meaning.annotationOf n.line (meanings n.children)).name = String.ofList (joined ns) ↔
        Token.Plain n.nameTokens.tail)

theorem Spelled.named {n : Tree} (h : n.Spelled) : n.Named where
  package hk := by
    obtain ⟨r, cs, rfl⟩ := eq_node_of_kind? hk
    obtain ⟨front, p, name, q, ns, rfl, hfront, hdotted, hsound, htokens⟩ := h.package
    refine ⟨name, by simp [children], ns, hdotted, ?_⟩
    rw [htokens, packageName?_eq_iff hfront hdotted hsound]
  imported hk := by
    obtain ⟨r, cs, rfl⟩ := eq_node_of_kind? hk
    obtain ⟨static, name, demand, ns, himport, hdotted, htokens⟩ := h.imported
    refine ⟨static, name, demand, ns, himport, hdotted, fun hstatic => ?_, ?_⟩
    · have hyes : (Tree.node r .importDeclaration cs).isStaticImport = true := by
        rw [himport.isStaticImport hdotted]
        simpa using hstatic
      rw [importedType?, hyes]
      rfl
    · rintro rfl hdemand
      rw [htokens rfl, himport.importedType?_eq_iff hdotted h.sound hdemand]
  annotated := by
    rintro ⟨k, hk, hform⟩
    obtain ⟨r, cs, rfl⟩ := eq_node_of_kind? hk
    obtain ⟨p, name, rest, ns, rfl, hrole, hdotted, hsound, htokens⟩ := h.annotated hform
    refine ⟨name, by simp [child?, children, hrole], ns, hdotted, ?_⟩
    rw [htokens, children, annotationOf_name_iff hrole hdotted hsound]

end Tree

/-- In a source that can be read, every package declaration, every annotation
    and every single-type import is named as it should be exactly if there is
    no comment in its name. -/
theorem Source.named_of_parse {source : String} {t : Tree} (h : parse source = .ok t) :
    ∀ n ∈ t.parts, n.Named := fun n hn => ((spelled_of_parse h).partsBy n hn).named

end MessageHarvest
