import MessageHarvest.Source.Expr
import MessageHarvest.Text.Split

/-! # Source units

    One source file: its path, its package, its single-type imports and its
    nodes. Annotation names are resolved against package and imports. -/

namespace MessageHarvest

/-- One source file. -/
structure SourceUnit where
  /-- Path relative to the project root, with `/` between its parts. -/
  path : String
  /-- The declared package. -/
  package? : Option String
  /-- Fully qualified single-type imports in order. -/
  imports : List String
  /-- Nodes in source order. -/
  nodes : List Node

namespace SourceUnit

/-- The qualified name that an annotation name stands for. A dotted name is
    taken as written, a simple name is the first import that ends in it, and
    otherwise it belongs to the package of the file. -/
def qualify (u : SourceUnit) (name : String) : String :=
  if name.toList.contains '.' then name
  else
    match u.imports.find? (fun i => (Text.dropEnd? ('.' :: name.toList) i.toList).isSome) with
    | some i => i
    | none =>
      match u.package? with
      | some p => p ++ "." ++ name
      | none => name

end SourceUnit

end MessageHarvest
