import MessageHarvest.Text.Blank

/-! # Quoted strings in catalogs

    Inside quotes a backslash, a quote, a line feed, a tab and a carriage
    return are written with a backslash. Reading keeps a backslash before any
    other character. -/

namespace MessageHarvest.Catalog

/-- How a character is written between quotes. -/
def escapeChar (c : Char) : List Char :=
  if c = '\\' then ['\\', '\\']
  else if c = '"' then ['\\', '"']
  else if c = '\n' then ['\\', 'n']
  else if c = '\t' then ['\\', 't']
  else if c = '\r' then ['\\', 'r']
  else [c]

/-- How text is written between quotes. -/
def escape (t : List Char) : List Char := t.flatMap escapeChar

/-- Text between quotes. -/
def quote (t : List Char) : List Char := '"' :: (escape t ++ ['"'])

/-- What a backslash and a character stand for. -/
def unescapeChar (c : Char) : List Char :=
  if c = 'n' then ['\n']
  else if c = 't' then ['\t']
  else if c = 'r' then ['\r']
  else if c = '"' then ['"']
  else if c = '\\' then ['\\']
  else ['\\', c]

/-- The text that is written between quotes. A quote or a last backslash
    cannot stand there. -/
def unescape? : List Char → Option (List Char)
  | [] => some []
  | '\\' :: c :: t => (unescape? t).map (unescapeChar c ++ ·)
  | '\\' :: [] => none
  | '"' :: _ => none
  | c :: t => (unescape? t).map (c :: ·)

/-- The text of a quoted string with blanks around it. -/
def unquote? (token : List Char) : Option (List Char) :=
  match Text.trim token with
  | '"' :: t =>
    match t.reverse with
    | '"' :: body => unescape? body.reverse
    | _ => none
  | _ => none

theorem unescape?_escapeChar (c : Char) (t : List Char) :
    unescape? (escapeChar c ++ t) = (unescape? t).map (c :: ·) := by
  by_cases h₁ : c = '\\'
  · subst h₁; rfl
  by_cases h₂ : c = '"'
  · subst h₂; rfl
  by_cases h₃ : c = '\n'
  · subst h₃; rfl
  by_cases h₄ : c = '\t'
  · subst h₄; rfl
  by_cases h₅ : c = '\r'
  · subst h₅; rfl
  simp only [escapeChar, h₁, h₂, h₃, h₄, h₅, if_false, List.cons_append, List.nil_append]
  rw [unescape?]
  · exact fun _ _ h => absurd h h₁
  · exact fun h _ => h₁ h
  · exact fun h => h₂ h

@[simp] theorem unescape?_escape (t : List Char) : unescape? (escape t) = some t := by
  induction t with
  | nil => rfl
  | cons c t ih =>
    rw [escape, List.flatMap_cons, ← escape, unescape?_escapeChar, ih]
    rfl

end MessageHarvest.Catalog
