import MessageHarvest.Sorted
import MessageHarvest.Text.Split

/-! # Paths

    A path is a text with `/` between its parts. Two spellings of one path
    differ in slashes and in `.` parts only, so paths are compared by their
    components.

    * `components`: the parts of a path; a `.` counts only as the first part
      of a relative path.
    * `join`, `parent?`, `fileName?`, `extension?` work on the spelling, so
      that messages show a path the way it was given.
    * `relativeTo`: the components below a root, with `/` between them. -/

namespace MessageHarvest

/-- The path of a file, as it is spelled. -/
structure Path where
  text : String
  deriving DecidableEq, Repr, Inhabited

/-- A part of a path. -/
inductive Path.Component where
  | root
  | current
  | parent
  | normal (name : String)
  deriving DecidableEq, Repr, Inhabited

namespace Path

/-! ## Components -/

namespace Component

/-- How a component is spelled. -/
def name : Component → String
  | root => "/"
  | current => "."
  | parent => ".."
  | normal n => n

/-- The rank of a kind of component. -/
def rank : Component → Nat
  | root => 0
  | current => 1
  | parent => 2
  | normal _ => 3

/-- By kind, then by name. -/
instance : Ord Component where
  compare := compareLex (compareOn rank) (compareOn name)

instance : Std.TransOrd Component :=
  inferInstanceAs (Std.TransCmp (compareLex (compareOn rank) (compareOn name)))

/-- The component that a part other than the first is. -/
def ofPart? (part : List Char) : Option Component :=
  if part = [] ∨ part = ['.'] then none
  else if part = ['.', '.'] then some .parent
  else some (.normal (String.ofList part))

end Component

/-- The parts of a text between slashes. -/
def parts (t : List Char) : List (List Char) := Text.fields (· == '/') t

/-- The components of a path. -/
def components (p : Path) : List Component :=
  match p.text.toList with
  | '/' :: t => .root :: (parts t).filterMap Component.ofPart?
  | t =>
    match parts t with
    | first :: rest =>
      let start := if first = ['.'] then some .current else Component.ofPart? first
      start.toList ++ rest.filterMap Component.ofPart?
    | [] => []

/-- Paths in the order of their components; of several spellings the first
    one stays. -/
abbrev Set := Sorted Path components

/-- Whether a path starts at the root. -/
def isAbsolute (p : Path) : Bool := p.text.toList.head? == some '/'

/-- Whether two paths have the same components. -/
def same (p q : Path) : Bool := p.components == q.components

/-- Whether a path is at or below another one. -/
def isBelow (p q : Path) : Bool := q.components.isPrefixOf p.components

/-! ## Spelling -/

/-- The path that a second one leads to from a first one. An absolute path
    leads to itself. -/
def join (p q : Path) : Path :=
  if q.isAbsolute then q
  else
    let t := p.text.toList
    let slash := if t.isEmpty || t.getLast? == some '/' then "" else "/"
    ⟨p.text ++ slash ++ q.text⟩

/-- The path of a name below a path. -/
def child (p : Path) (name : String) : Path := p.join ⟨name⟩

/-- The path of several names below a path. -/
def descend (p : Path) (names : List String) : Path := names.foldl child p

/-- Reversed parts without the ones at the end that are no components. -/
def dropIdle (reversed : List (List Char)) : List (List Char) :=
  reversed.dropWhile fun part => (Component.ofPart? part).isNone

/-- Reversed parts of a relative path without the ones at the end that are no
    components; the first part stays if it is `.`. -/
def dropIdleRelative (reversed : List (List Char)) : List (List Char) :=
  match dropIdle reversed with
  | [] => if reversed.getLast? = some ['.'] then [['.']] else []
  | ps => ps

/-- Parts in reverse as a text. -/
def ofReversed (reversed : List (List Char)) : List Char := Text.join ['/'] reversed.reverse

/-- The path without its last component. -/
def parent? (p : Path) : Option Path :=
  match p.text.toList with
  | '/' :: t =>
    match dropIdle (parts t).reverse with
    | [] => none
    | _ :: rest => some ⟨String.ofList ('/' :: ofReversed (dropIdle rest))⟩
  | t =>
    match dropIdleRelative (parts t).reverse with
    | [] => none
    | _ :: rest => some ⟨String.ofList (ofReversed (dropIdleRelative rest))⟩

/-- The last component, if it is a name. -/
def fileName? (p : Path) : Option String :=
  match p.components.getLast? with
  | some (.normal n) => some n
  | _ => none

/-- What follows the last dot of the file name, unless that dot comes first. -/
def extension? (p : Path) : Option String := do
  let n ← p.fileName?
  match Text.splitLast (· == '.') n.toList with
  | some (_ :: _, e) => some (String.ofList e)
  | _ => none

/-- The path with another file name. -/
def withFileName (p : Path) (name : String) : Path :=
  match p.fileName?, p.parent? with
  | some _, some q => q.child name
  | _, _ => p.child name

/-- A path followed by the ones of all directories above it. -/
def ancestors (p : Path) : List Path := climb p.text.length p
where
  /-- At most the given number of steps up. -/
  climb : Nat → Path → List Path
    | 0, p => [p]
    | n + 1, p =>
      match p.parent? with
      | some q => p :: climb n q
      | none => [p]

/-! ## Relative paths -/

/-- What is left of a list behind its beginning. -/
def dropComponents? : List Component → List Component → Option (List Component)
  | [], cs => some cs
  | a :: as, b :: bs => if a = b then dropComponents? as bs else none
  | _ :: _, [] => none

/-- The path of a file below a root, with `/` between the components and
    without `.`. A file elsewhere keeps its path. -/
def relativeTo (root file : Path) : String :=
  match dropComponents? root.components file.components with
  | some cs => "/".intercalate ((cs.filter (· != .current)).map Component.name)
  | none => String.ofList (file.text.toList.map fun c => if c = '\\' then '/' else c)

end Path

end MessageHarvest
