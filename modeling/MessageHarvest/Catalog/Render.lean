import MessageHarvest.Catalog.Quoted
import MessageHarvest.Catalog.Reference
import MessageHarvest.Message.Store

/-! # Writing catalogs

    A catalog is written as lines: comments, the header entry, which names the
    charset, and the messages in catalog order, each behind a blank line. Text
    of several lines is written as an empty string and one string for each
    line. -/

namespace MessageHarvest.Catalog

/-- What a catalog starts with. -/
structure Header where
  comments : List String := []
  /-- Fields behind those for the charset, each `Name: value`. -/
  fields : List String := []
  deriving DecidableEq, Repr, Inhabited

/-- The lines of a comment; every line has its own mark. -/
def commentLines (comment : String) : List (List Char) :=
  let mark := fun l : List Char => if l.isEmpty then ['#'] else '#' :: ' ' :: l
  if comment = "" then [['#']] else (Text.lines comment.toList).map mark

/-- A keyword and a quoted text. -/
def fieldLine (keyword : String) (text : List Char) : List Char :=
  keyword.toList ++ ' ' :: quote text

/-- The lines of a keyword and its text. -/
def fieldLines (keyword : String) (text : List Char) : List (List Char) :=
  match Text.linesKept text with
  | l :: m :: ls => fieldLine keyword [] :: (l :: m :: ls).map quote
  | _ => [fieldLine keyword text]

/-- The lines of the header entry. -/
def headerLines (h : Header) (charset : String) : List (List Char) :=
  let fields := ("Content-Type: text/plain; charset=" ++ charset) ::
    "Content-Transfer-Encoding: 8bit" :: h.fields
  fieldLine "msgid" [] :: fieldLine "msgstr" [] ::
    fields.map fun f => quote (f.toList ++ ['\n'])

/-- The lines of a message. -/
def messageLines (m : Message) : List (List Char) :=
  referenceLines m.occurrences.toList ++ fieldLines "msgid" m.key.singular.toList ++
  match m.key.plural with
  | some p => fieldLines "msgid_plural" p.toList ++
    [fieldLine "msgstr[0]" [], fieldLine "msgstr[1]" []]
  | none => [fieldLine "msgstr" []]

/-- The lines of a catalog. -/
def catalogLines (s : Store) (h : Header) (charset : String) : List (List Char) :=
  h.comments.flatMap commentLines ++ headerLines h charset ++
  s.sorted.flatMap fun m => [] :: messageLines m

/-- The text of a catalog. -/
def render (s : Store) (h : Header) (charset : String) : List Char :=
  (catalogLines s h charset).flatMap fun l => l ++ ['\n']

end MessageHarvest.Catalog
