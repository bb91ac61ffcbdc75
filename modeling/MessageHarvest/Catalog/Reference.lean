import MessageHarvest.Message.Basic
import MessageHarvest.Text.Blank
import MessageHarvest.Text.Number
import MessageHarvest.Text.Split
import MessageHarvest.Text.Utf8

/-! # References in catalogs

    A reference line is `#:` and references, each behind a space. A reference
    is a path, a colon and a line.

    * Writing fills a line as long as it stays within `referenceWidth` bytes.
    * Reading ends a reference at a word that ends in a colon and digits, so
      that a path may have blanks in it. What is left at the end of the line
      is one more reference, and counts if it has a line after all. -/

namespace MessageHarvest.Catalog

/-! ## Writing -/

/-- The greatest length in bytes of a line with several references. -/
def referenceWidth : Nat := 79

/-- How a reference line starts. -/
def referenceMark : List Char := ['#', ':']

/-- Adds a reference to a line. -/
def addReference (line reference : List Char) : List Char := line ++ ' ' :: reference

/-- Whether a line with references in it has no room for one more. -/
def isFull (line reference : List Char) : Bool :=
  referenceMark.length < line.length &&
    referenceWidth < Text.byteLength line + 1 + Text.byteLength reference

/-- The reference lines that a started line and more references make up. -/
def referenceLinesFrom (line : List Char) : List (List Char) → List (List Char)
  | [] => if referenceMark.length < line.length then [line] else []
  | r :: rs =>
    if isFull line r then line :: referenceLinesFrom (addReference referenceMark r) rs
    else referenceLinesFrom (addReference line r) rs

/-- The reference lines of some occurrences. -/
def referenceLines (os : List Occurrence) : List (List Char) :=
  referenceLinesFrom referenceMark (os.map Occurrence.reference)

/-! ## Reading -/

/-- Whether a word ends in a colon and digits. -/
def hasLineSuffix (word : List Char) : Bool :=
  match Text.splitLast (· == ':') word with
  | some (_, n) => Text.isDigits n
  | none => false

/-- The references in a text, given in reverse what the current reference has
    before the current word, and the current word. -/
def splitFrom (before word : List Char) : List Char → List (List Char)
  | [] =>
    if word.isEmpty then
      if before.isEmpty then [] else [Text.trimEnd before.reverse]
    else [before.reverse ++ word.reverse]
  | c :: t =>
    if !Text.isBlank c then splitFrom before (c :: word) t
    else if word.isEmpty then
      splitFrom (if before.isEmpty then [] else c :: before) [] t
    else if hasLineSuffix word.reverse then
      (before.reverse ++ word.reverse) :: splitFrom [] [] t
    else splitFrom (c :: (word ++ before)) [] t

/-- The references behind the mark of a reference line. -/
def splitReferences (t : List Char) : List (List Char) := splitFrom [] [] t

/-- The occurrence that a reference stands for: a path, the last colon and a line. -/
def parseReference? (reference : List Char) : Option Occurrence := do
  let (path, line) ← Text.splitLast (· == ':') reference
  let n ← Text.count? line
  if path.isEmpty then none else return ⟨String.ofList path, n⟩

/-- The occurrences behind the mark of a reference line. -/
def parseReferences (t : List Char) : List Occurrence :=
  (splitReferences t).filterMap parseReference?

end MessageHarvest.Catalog
