import MessageHarvest.Catalog.Quoted
import MessageHarvest.Catalog.Reference
import MessageHarvest.Message.Store

/-! # Reading catalogs

    A catalog is read line by line. Each line is one of the things a `Line`
    can be, and changes the state of the reading: the entry that is open and
    the store of the entries that are closed. An entry is closed by a blank
    line, by references or a new message behind its text, and by the end.

    Messages get their positions in order of appearance. The header entry,
    whose message is empty, obsolete entries and the texts of `msgctxt` and
    `msgstr` are read and left out. -/

namespace MessageHarvest.Catalog

/-- What is wrong with a catalog. -/
inductive Problem where
  | referencesWithoutMsgid
  | entryWithoutMsgstr
  | malformedString
  | strayString
  | missingString
  | msgidWithoutMsgstr
  | pluralBeforeMsgid
  | msgstrBeforeMsgid
  | unknownKeyword (keyword : String)
  deriving DecidableEq, Repr, Inhabited

/-- A problem in words. -/
def Problem.message : Problem → String
  | referencesWithoutMsgid => "references without msgid"
  | entryWithoutMsgstr => "entry without msgstr"
  | malformedString => "malformed string"
  | strayString => "string continuation outside of an entry"
  | missingString => "expected keyword and string"
  | msgidWithoutMsgstr => "msgid without msgstr"
  | pluralBeforeMsgid => "msgid_plural before msgid"
  | msgstrBeforeMsgid => "msgstr before msgid"
  | unknownKeyword k => "unknown keyword '" ++ k ++ "'"

/-! ## Lines -/

/-- The keywords of catalogs. -/
inductive Keyword where
  | msgctxt | msgid | msgidPlural | msgstr
  deriving DecidableEq, Repr, Inhabited

/-- Whether a word is `msgstr` with a number in brackets. -/
def isNumberedMsgstr (word : List Char) : Bool :=
  match Text.dropStart? "msgstr[".toList word with
  | some rest =>
    match Text.dropEnd? [']'] rest with
    | some n => Text.isDigits n
    | none => false
  | none => false

/-- The keyword that a word is. -/
def Keyword.ofWord? (word : List Char) : Option Keyword :=
  if word = "msgctxt".toList then some .msgctxt
  else if word = "msgid".toList then some .msgid
  else if word = "msgid_plural".toList then some .msgidPlural
  else if word = "msgstr".toList || isNumberedMsgstr word then some .msgstr
  else none

/-- What a line of a catalog is. -/
inductive Line where
  | blank
  | comment
  | references (occurrences : List Occurrence)
  | string (text : List Char)
  | field (keyword : Keyword) (text : List Char)
  deriving DecidableEq, Repr, Inhabited

/-- What a line of text is; blanks around it do not count. -/
def Line.parse (raw : List Char) : Except Problem Line :=
  match Text.trim raw with
  | [] => .ok .blank
  | '#' :: ':' :: t => .ok (.references (parseReferences t))
  | '#' :: _ => .ok .comment
  | '"' :: t =>
    match unquote? ('"' :: t) with
    | some s => .ok (.string s)
    | none => .error .malformedString
  | t =>
    match Text.splitFirst Text.isBlank t with
    | none => .error .missingString
    | some (word, value) =>
      match unquote? value with
      | none => .error .malformedString
      | some s =>
        match Keyword.ofWord? word with
        | some k => .ok (.field k s)
        | none => .error (.unknownKeyword (String.ofList word))

/-! ## Entries -/

/-- An entry as far as it has been read. -/
structure Entry where
  references : List Occurrence := []
  singular : Option (List Char) := none
  plural : Option (List Char) := none
  hasMsgstr : Bool := false
  /-- What a string on a line of its own continues. -/
  open? : Option Keyword := none
  deriving DecidableEq, Repr, Inhabited

namespace Entry

/-- Whether nothing of a message has been read. -/
def isEmpty (e : Entry) : Bool := e.singular.isNone && e.references.isEmpty

/-- Continues the field that is open. -/
def extend (e : Entry) (text : List Char) : Except Problem Entry :=
  match e.open? with
  | none => .error .strayString
  | some .msgctxt | some .msgstr => .ok e
  | some .msgid => .ok { e with singular := e.singular.map (· ++ text) }
  | some .msgidPlural => .ok { e with plural := e.plural.map (· ++ text) }

end Entry

/-! ## States -/

/-- How far a catalog has been read. -/
structure State where
  store : Store := .empty
  /-- The position of the next message. -/
  next : Nat := 0
  entry : Entry := {}
  deriving Inhabited

namespace State

/-- Adds a message with the next position. -/
def push (s : State) (key : Message.Key) (references : List Occurrence) : State :=
  { store := s.store.insert ⟨key, .at s.next, .ofList references⟩, next := s.next + 1 }

/-- Closes the open entry. -/
def close (s : State) : Except Problem State :=
  match s.entry.singular with
  | none =>
    if s.entry.references.isEmpty then .ok { s with entry := {} }
    else .error .referencesWithoutMsgid
  | some [] => .ok { s with entry := {} }
  | some text =>
    if s.entry.hasMsgstr then
      .ok (s.push ⟨String.ofList text, s.entry.plural.map String.ofList⟩ s.entry.references)
    else .error .entryWithoutMsgstr

/-- Reads a field of the open entry. Behind a `msgstr`, a `msgctxt` or a `msgid`
    starts a new entry. -/
def field (s : State) (k : Keyword) (text : List Char) : Except Problem State := do
  match k with
  | .msgctxt | .msgid =>
    let s ←
      if s.entry.singular.isNone then .ok s
      else if s.entry.hasMsgstr then s.close
      else .error .msgidWithoutMsgstr
    let e := s.entry
    return { s with
      entry := if k = .msgctxt then { e with open? := some k }
        else { e with singular := some text, open? := some k } }
  | .msgidPlural =>
    if s.entry.singular.isNone then .error .pluralBeforeMsgid
    else return { s with entry := { s.entry with plural := some text, open? := some k } }
  | .msgstr =>
    if s.entry.singular.isNone then .error .msgstrBeforeMsgid
    else return { s with entry := { s.entry with hasMsgstr := true, open? := some k } }

/-- Reads a line. -/
def step (s : State) : Line → Except Problem State
  | .blank => if s.entry.isEmpty then .ok s else s.close
  | .comment => .ok s
  | .references os => do
    let s ← if s.entry.singular.isSome then s.close else .ok s
    return { s with entry := { s.entry with references := s.entry.references ++ os } }
  | .string text => do return { s with entry := ← s.entry.extend text }
  | .field k text => s.field k text

/-- Reads a line of text. -/
def stepText (s : State) (raw : List Char) : Except Problem State := do
  s.step (← Line.parse raw)

/-- Reads what is left open at the end. -/
def finish (s : State) : Except Problem State := if s.entry.isEmpty then .ok s else s.close

end State

/-! ## Catalogs -/

/-- A problem on a line, counted from one. -/
structure Fault where
  line : Nat
  problem : Problem
  deriving DecidableEq, Repr, Inhabited

/-- Reads lines, the first of which has the given number. -/
def readLines (s : State) : Nat → List (List Char) → Except Fault State
  | _, [] => .ok s
  | n, l :: ls =>
    match s.stepText l with
    | .ok s => readLines s (n + 1) ls
    | .error p => .error ⟨n, p⟩

/-- The store of a catalog. An entry that the end of the text closes badly is
    a problem of the last line. -/
def parse (text : List Char) : Except Fault Store := do
  let ls := Text.lines text
  let s ← readLines {} 1 ls
  match s.finish with
  | .ok s => return s.store
  | .error p => .error ⟨ls.length, p⟩

end MessageHarvest.Catalog
