import Mathlib.Data.List.Perm.Basic
import MessageHarvest.Scan
import MessageHarvest.Source.Tree
import MessageHarvest.Text.Blank

/-! # Method invocations and annotations in a syntax tree

    A mark is a method invocation or an annotation by its line and its name.
    The marks of a tree are listed in source order, each before the ones inside
    it. Some places of a tree have no counterpart in the extraction model
    (`Tree.hides`), and the marks of a tree are those outside these places and
    those in them (`visible_append_hidden`). -/

namespace MessageHarvest

/-- What a site is, apart from its parts. -/
inductive Mark where
  | call (line : Nat) (method : String)
  | annotated (line : Nat) (name : String)
  deriving DecidableEq, Repr

/-- The mark of a site. -/
def Site.mark : Site → Mark
  | .call line method _ => .call line method
  | .annotated a => .annotated a.line a.name

namespace Tree

/-- Induction over a tree and its children. -/
theorem induct {P : Tree → Prop} (leaf : ∀ r t, P (.leaf r t))
    (node : ∀ r k cs, (∀ c ∈ cs, P c) → P (.node r k cs)) (t : Tree) : P t :=
  @Tree.rec P (fun cs => ∀ c ∈ cs, P c) leaf node (fun _ h => nomatch h)
    (fun _ _ hc hcs => List.forall_mem_cons.2 ⟨hc, hcs⟩) t

/-! ## Marks -/

/-- The first child in a role. -/
def child? (r : Role) (cs : List Tree) : Option Tree := cs.find? fun c => c.role == some r

/-- The source text of the first child in a role. -/
def childText (r : Role) (cs : List Tree) : List Char := ((child? r cs).map text).getD []

/-- The mark that a node itself is. Blanks in the name of an annotation do not count. -/
def mark? (t : Tree) : Option Mark :=
  match t.kind? with
  | some .methodInvocation => some (.call t.line (String.ofList (childText .name t.children)))
  | some .annotationForm | some .markerForm =>
    some (.annotated t.line (String.ofList (Text.compact (childText .name t.children))))
  | _ => none

mutual

/-- The marks of a tree. -/
def marks : Tree → List Mark
  | leaf _ _ => []
  | node r k cs => (node r k cs).mark?.toList ++ marksIn cs

/-- The marks of some trees. -/
def marksIn : List Tree → List Mark
  | [] => []
  | c :: cs => c.marks ++ marksIn cs

end

theorem marksIn_eq (cs : List Tree) : marksIn cs = cs.flatMap marks := by
  induction cs with
  | nil => rfl
  | cons c cs ih => rw [marksIn, ih, List.flatMap_cons]

/-! ## Places that the extraction model does not have -/

/-- Whether a child of a node of kind `k` has no counterpart in the extraction
    model: a package declaration in a source, the types of a cast, the type
    arguments of a call, and what is embedded in a string. -/
def hides : Kind → Tree → Bool
  | .program, c => c.kind? = some .packageDeclaration
  | .castExpression, c => c.role = some .type
  | .methodInvocation, c => c.kind? = some .typeArguments
  | .stringLiteral, _ => true
  | _, _ => false

mutual

/-- The marks of a tree outside the places that are left out. -/
def visible : Tree → List Mark
  | leaf _ _ => []
  | node r k cs => (node r k cs).mark?.toList ++ visibleIn k cs

/-- The marks of the children of a node of kind `k` outside these places. -/
def visibleIn (k : Kind) : List Tree → List Mark
  | [] => []
  | c :: cs => (if hides k c then [] else c.visible) ++ visibleIn k cs

end

mutual

/-- The marks of a tree in the places that are left out. -/
def hidden : Tree → List Mark
  | leaf _ _ => []
  | node _ k cs => hiddenIn k cs

/-- The marks of the children of a node of kind `k` in these places. -/
def hiddenIn (k : Kind) : List Tree → List Mark
  | [] => []
  | c :: cs => (if hides k c then c.marks else c.hidden) ++ hiddenIn k cs

end

@[simp] theorem visible_leaf (r : Option Role) (t : Token) : (Tree.leaf r t).visible = [] := rfl

theorem visibleIn_eq (k : Kind) (cs : List Tree) :
    visibleIn k cs = cs.flatMap fun c => if hides k c then [] else c.visible := by
  induction cs with
  | nil => rfl
  | cons c cs ih => rw [visibleIn, ih, List.flatMap_cons]

theorem visibleIn_append (k : Kind) (cs ds : List Tree) :
    visibleIn k (cs ++ ds) = visibleIn k cs ++ visibleIn k ds := by
  rw [visibleIn_eq, visibleIn_eq, visibleIn_eq, List.flatMap_append]

/-- Without hidden children, all marks of the children are visible. -/
theorem visibleIn_of_forall {k : Kind} {cs : List Tree} (h : ∀ c ∈ cs, hides k c = false) :
    visibleIn k cs = cs.flatMap visible := by
  rw [visibleIn_eq]
  refine List.flatMap_congr fun c hc => ?_
  rw [h c hc]
  rfl

theorem visibleIn_append_hiddenIn {k : Kind} {cs : List Tree}
    (h : ∀ c ∈ cs, (c.visible ++ c.hidden).Perm c.marks) :
    (visibleIn k cs ++ hiddenIn k cs).Perm (marksIn cs) := by
  induction cs with
  | nil => exact List.Perm.refl _
  | cons c cs ih =>
    obtain ⟨hc, hcs⟩ := List.forall_mem_cons.1 h
    rw [visibleIn, hiddenIn, marksIn]
    -- a child is hidden as a whole or goes on by itself
    have hhead : ((if hides k c then [] else c.visible) ++
        (if hides k c then c.marks else c.hidden)).Perm c.marks := by
      cases hides k c with
      | true => exact List.Perm.refl _
      | false => exact hc
    generalize (if hides k c then [] else c.visible) = shown at hhead ⊢
    generalize (if hides k c then c.marks else c.hidden) = left at hhead ⊢
    calc (shown ++ visibleIn k cs) ++ (left ++ hiddenIn k cs)
        = shown ++ ((visibleIn k cs ++ left) ++ hiddenIn k cs) := by simp
      _ |>.Perm (shown ++ ((left ++ visibleIn k cs) ++ hiddenIn k cs)) :=
          (List.perm_append_comm.append_right _).append_left _
      _ = (shown ++ left) ++ (visibleIn k cs ++ hiddenIn k cs) := by simp
      _ |>.Perm (c.marks ++ marksIn cs) := hhead.append (ih hcs)

/-- The marks of a tree are those outside and those in the places that are left out. -/
theorem visible_append_hidden (t : Tree) : (t.visible ++ t.hidden).Perm t.marks := by
  induction t using induct with
  | leaf r t => exact List.Perm.refl _
  | node r k cs ih =>
    rw [visible, hidden, marks, List.append_assoc]
    exact (visibleIn_append_hiddenIn ih).append_left _

theorem visible_eq_nil {t : Tree} (h : t.marks = []) : t.visible = [] := by
  have hperm := t.visible_append_hidden
  rw [h, List.perm_nil] at hperm
  exact (List.append_eq_nil_iff.1 hperm).1

/-- A child without marks shows none. -/
theorem visibleIn_eq_nil {k : Kind} {cs : List Tree}
    (h : ∀ c ∈ cs, c.marks = [] ∨ hides k c = true) : visibleIn k cs = [] := by
  rw [visibleIn_eq, List.flatMap_eq_nil_iff]
  intro c hc
  rcases h c hc with h | h
  · rw [visible_eq_nil h, ite_self]
  · rw [h]
    rfl

/-! ## Roles -/

@[simp] theorem role_leaf (r : Option Role) (t : Token) : (Tree.leaf r t).role = r := rfl

theorem marks_withRole (r : Role) (t : Tree) : (t.withRole r).marks = t.marks := by
  cases t <;> rfl

@[simp] theorem kind?_withRole (r : Role) (t : Tree) : (t.withRole r).kind? = t.kind? := by
  cases t <;> rfl

@[simp] theorem role_withRole (r : Role) (t : Tree) : (t.withRole r).role = some r := by
  cases t <;> rfl

end Tree

end MessageHarvest
