import MessageHarvest.Source.Tree

/-! # Grammars

    A grammar is a value that says how to read tokens as trees. Choices are
    ordered and repetitions are greedy: a grammar reads one thing at most.

    * Terminals match the next token; `angle` takes one `>` off a symbol that
      starts with it, since `>>` closes two lists of type arguments.
    * `node` gathers what it reads under one node, `role` gives it a role.
    * `given a b` reads `a` and then `b`; inside `b`, `before` stands for what
      `a` has read. A declaration so gets its modifiers as its first child.
    * `chain base step` reads `base` and then `step` again and again; inside
      `step`, `before` stands for everything read so far. Operators and
      member accesses so associate to the left.
    * `rule` refers to a rule by name.

    The outcome always tells the furthest token that did not fit, for the
    place of a syntax error. -/

namespace MessageHarvest

/-- How to read tokens, with rules named by `R`. -/
inductive Grammar (R : Type) where
  | empty
  | symbol (s : List Char)
  | keyword (w : List Char)
  /-- Any word but the listed ones. -/
  | word (reserved : List (List Char))
  | token (k : Token.Kind)
  | angle
  | finish
  /-- Nothing stands before the next token. -/
  | adjacent
  /-- The class and the text of the next token satisfy `p`; it is not taken. -/
  | ahead (p : Token.Kind → List Char → Bool)
  /-- `g` cannot be read here; nothing is taken. -/
  | not (g : Grammar R)
  | seq (a b : Grammar R)
  | alt (a b : Grammar R)
  | star (g : Grammar R)
  | node (k : Tree.Kind) (g : Grammar R)
  | role (r : Tree.Role) (g : Grammar R)
  | given (a b : Grammar R)
  | chain (base step : Grammar R)
  | before
  /-- What has been read before is a node of one of the kinds. -/
  | beforeIs (ks : List Tree.Kind)
  | rule (r : R)

namespace Grammar

variable {R : Type}

/-! ## Outcomes -/

/-- A successful reading. -/
structure Reading where
  trees : List Tree
  rest : List Token
  /-- The furthest token that did not fit. -/
  furthest : Nat

/-- A reading, or the furthest token that did not fit. -/
abbrev Outcome := Except Nat Reading

/-- The place of the next token. -/
def place : List Token → Nat
  | [] => 0
  | t :: _ => t.index

/-- Takes the next token as a leaf if it satisfies `p`. -/
def take (p : Token → Bool) : List Token → Outcome
  | [] => .error 0
  | t :: ts => if p t then .ok ⟨[.leaf none t], ts, 0⟩ else .error t.index

/-- Succeeds without taking anything if the next token satisfies `p`. -/
def look (p : Token → Bool) : List Token → Outcome
  | [] => .error 0
  | t :: ts => if p t then .ok ⟨[], t :: ts, 0⟩ else .error t.index

/-- Takes one `>` off the next token. -/
def takeAngle : List Token → Outcome
  | [] => .error 0
  | t :: ts =>
    match t.kind, t.text with
    | .symbol, '>' :: [] => .ok ⟨[.leaf none t], ts, 0⟩
    | .symbol, '>' :: r =>
      .ok ⟨[.leaf none { t with text := ['>'] }], { t with lead := [], text := r } :: ts, 0⟩
    | _, _ => .error t.index

/-- Whether a token is a given symbol. -/
def isSymbol (s : List Char) (t : Token) : Bool := t.kind = .symbol && t.text = s

/-- Whether a token is a given word. -/
def isWord (w : List Char) (t : Token) : Bool := t.kind = .word && t.text = w

/-- Whether a token is one of some words. -/
def isAnyWord (ws : List (List Char)) (t : Token) : Bool :=
  t.kind = .word && ws.contains t.text

/-! ## Reading -/

/-- Reads the step of a chain as long as it can be read and takes a token, at
    most as often as the first argument says. -/
def chainFrom (step : List Tree → List Token → Outcome) :
    Nat → List Tree → List Token → Nat → Reading
  | 0, acc, ts, far => ⟨acc, ts, far⟩
  | n + 1, acc, ts, far =>
    match step acc ts with
    | .error f => ⟨acc, ts, max far f⟩
    | .ok r =>
      -- a step that takes no token would be read again and again
      if place ts < place r.rest then chainFrom step n r.trees r.rest (max far r.furthest)
      else ⟨acc, ts, max far r.furthest⟩

/-- Reads by a grammar: `limit` bounds repetitions, `call` reads a rule, and the
    list of trees is what the enclosing chain has read. -/
def run (limit : Nat) (call : R → List Token → Outcome) :
    Grammar R → List Tree → List Token → Outcome
  | empty, _, ts => .ok ⟨[], ts, 0⟩
  | symbol s, _, ts => take (isSymbol s) ts
  | keyword w, _, ts => take (isWord w) ts
  | word ws, _, ts => take (fun t => t.kind = .word && !isAnyWord ws t) ts
  | token k, _, ts => take (fun t => t.kind = k) ts
  | angle, _, ts => takeAngle ts
  | finish, _, ts => look (fun t => t.kind = .finish) ts
  | adjacent, _, ts => look (fun t => t.lead.isEmpty) ts
  | ahead p, _, ts => look (fun t => p t.kind t.text) ts
  | not g, acc, ts =>
    match g.run limit call acc ts with
    | .error _ => .ok ⟨[], ts, 0⟩
    | .ok _ => .error (place ts)
  | seq a b, acc, ts =>
    match a.run limit call acc ts with
    | .error f => .error f
    | .ok r =>
      match b.run limit call acc r.rest with
      | .error f => .error (max r.furthest f)
      | .ok q => .ok ⟨r.trees ++ q.trees, q.rest, max r.furthest q.furthest⟩
  | alt a b, acc, ts =>
    match a.run limit call acc ts with
    | .ok r => .ok r
    | .error f =>
      match b.run limit call acc ts with
      | .ok r => .ok { r with furthest := max f r.furthest }
      | .error g => .error (max f g)
  | star g, acc, ts =>
    let step := fun read ts =>
      (g.run limit call acc ts).map fun r => { r with trees := read ++ r.trees }
    .ok (chainFrom step limit [] ts 0)
  | node k g, acc, ts =>
    (g.run limit call acc ts).map fun r => { r with trees := [.node none k r.trees] }
  | role x g, acc, ts =>
    (g.run limit call acc ts).map fun r => { r with trees := r.trees.map (Tree.withRole x) }
  | given a b, acc, ts =>
    match a.run limit call acc ts with
    | .error f => .error f
    | .ok r =>
      match b.run limit call r.trees r.rest with
      | .error f => .error (max r.furthest f)
      | .ok q => .ok { q with furthest := max r.furthest q.furthest }
  | chain base step, acc, ts =>
    match base.run limit call acc ts with
    | .error f => .error f
    | .ok r => .ok (chainFrom (step.run limit call) limit r.trees r.rest r.furthest)
  | before, acc, ts => .ok ⟨acc, ts, 0⟩
  | beforeIs ks, acc, ts =>
    if acc.any (fun t => t.kind?.any ks.contains) then .ok ⟨[], ts, 0⟩ else .error (place ts)
  | rule r, _, ts => call r ts

/-- Reads a rule to a given depth of rules inside rules. -/
def read (rules : R → Grammar R) (limit : Nat) : Nat → R → List Token → Outcome
  | 0, _, ts => .error (place ts)
  | n + 1, r, ts => (rules r).run limit (read rules limit n) [] ts

/-! ## Building grammars -/

/-- A symbol. -/
def sym (s : String) : Grammar R := symbol s.toList

/-- A keyword. -/
def kw (w : String) : Grammar R := keyword w.toList

/-- Grammars one after the other. -/
def cat (gs : List (Grammar R)) : Grammar R :=
  match gs with
  | [] => empty
  | [g] => g
  | g :: gs => seq g (cat gs)

/-- The first of some grammars that can be read. -/
def choice (gs : List (Grammar R)) : Grammar R :=
  match gs with
  | [] => not empty
  | [g] => g
  | g :: gs => alt g (choice gs)

/-- At most once. -/
def opt (g : Grammar R) : Grammar R := alt g empty

/-- At least once. -/
def plus (g : Grammar R) : Grammar R := seq g (star g)

/-- At least once, with a separator in between. -/
def separated (g sep : Grammar R) : Grammar R := seq g (star (seq sep g))

/-- At least once, with commas in between. -/
def commas1 (g : Grammar R) : Grammar R := separated g (sym ",")

/-- Any number of times, with commas in between. -/
def commas (g : Grammar R) : Grammar R := opt (commas1 g)

/-- Between parentheses. -/
def parens (g : Grammar R) : Grammar R := cat [sym "(", g, sym ")"]

/-- Between braces. -/
def braces (g : Grammar R) : Grammar R := cat [sym "\x7b", g, sym "\x7d"]

/-- Any word but some reserved ones. -/
def wordExcept (ws : List String) : Grammar R := word (ws.map String.toList)

/-- None of some words comes next. -/
def noneOf (ws : List String) : Grammar R :=
  let ws := ws.map String.toList
  ahead fun k w => !(k = .word && ws.contains w)

/-- One of some symbols. -/
def anySym (ss : List String) : Grammar R := choice (ss.map sym)

end Grammar

end MessageHarvest
