/-! # Help texts

    A help text says what a command is for and how it is called, and lists
    what can follow it. Rows are aligned by the longest label of their list. -/

namespace MessageHarvest

/-- A line of a list in a help text. -/
structure Help.Row where
  label : String
  about : String
  deriving DecidableEq, Repr, Inhabited

/-- A list in a help text. -/
structure Help.Section where
  title : String
  rows : List Help.Row
  deriving DecidableEq, Repr, Inhabited

/-- What a help text says. -/
structure Help where
  about : String
  usage : String
  sections : List Help.Section
  deriving DecidableEq, Repr, Inhabited

namespace Help

/-- The label of an option, with its short form if it has one. -/
def optionLabel (short? : Option Char) (long : String) (value? : Option String) : String :=
  let start := match short? with
    | some c => "-" ++ c.toString ++ ", --"
    | none => "    --"
  let value := match value? with
    | some v => " <" ++ v ++ ">"
    | none => ""
  start ++ long ++ value

/-- The row of the option that asks for help. -/
def helpRow : Row := ⟨optionLabel (some 'h') "help" none, "Print help"⟩

/-- A row whose label has at least a given width. -/
def Row.render (width : Nat) (r : Row) : String :=
  "  " ++ r.label ++ String.ofList (List.replicate (width - r.label.length) ' ') ++ "  " ++
    r.about ++ "\n"

/-- A list behind a blank line. -/
def Section.render (s : Section) : String :=
  let width := (s.rows.map fun r => r.label.length).foldl max 0
  "\n" ++ s.title ++ ":\n" ++ String.join (s.rows.map (Row.render width))

/-- The text. -/
def render (h : Help) : String :=
  h.about ++ "\n\nUsage: " ++ h.usage ++ "\n" ++ String.join (h.sections.map Section.render)

end Help

end MessageHarvest
