/-! # Cutting text at a character

    * `splitFirst`, `splitLast`: the two sides of the first or last separator.
    * `fields`: all pieces between separators; there is always at least one.
    * `lines`: pieces ended by a line feed, each without a final carriage
      return; a text that ends in a line feed has no empty last line.
    * `linesKept`: the same pieces with their line feeds, so that they
      concatenate to the text. -/

namespace MessageHarvest.Text

/-- The text before and after the first character that satisfies `p`. -/
def splitFirst (p : Char → Bool) : List Char → Option (List Char × List Char)
  | [] => none
  | c :: t => if p c then some ([], t) else (splitFirst p t).map fun (a, b) => (c :: a, b)

/-- The text before and after the last character that satisfies `p`. -/
def splitLast (p : Char → Bool) : List Char → Option (List Char × List Char)
  | [] => none
  | c :: t =>
    match splitLast p t with
    | some (a, b) => some (c :: a, b)
    | none => if p c then some ([], t) else none

/-- The pieces between the characters that satisfy `p`, empty ones included. -/
def fields (p : Char → Bool) : List Char → List (List Char)
  | [] => [[]]
  | c :: t =>
    if p c then [] :: fields p t
    else match fields p t with
      | f :: fs => (c :: f) :: fs
      | [] => [[c]]

/-- The lines of a text, each with its line feed if it has one. -/
def linesKept : List Char → List (List Char)
  | [] => []
  | c :: t =>
    if c = '\n' then ['\n'] :: linesKept t
    else match linesKept t with
      | l :: ls => (c :: l) :: ls
      | [] => [[c]]

/-- A line without its terminator, which is a line feed or a carriage return and a line feed. -/
def chomp (line : List Char) : List Char :=
  match line.reverse with
  | '\n' :: '\r' :: r => r.reverse
  | '\n' :: r => r.reverse
  | _ => line

/-- The lines of a text without their terminators. -/
def lines (t : List Char) : List (List Char) := (linesKept t).map chomp

/-- The rest of a text after a given beginning. -/
def dropStart? : List Char → List Char → Option (List Char)
  | [], t => some t
  | c :: p, d :: t => if c = d then dropStart? p t else none
  | _ :: _, [] => none

/-- The rest of a text before a given ending. -/
def dropEnd? (ending t : List Char) : Option (List Char) :=
  (dropStart? ending.reverse t.reverse).map List.reverse

/-- The pieces of a text joined with a separator. -/
def join (sep : List Char) : List (List Char) → List Char
  | [] => []
  | [t] => t
  | t :: ts => t ++ sep ++ join sep ts

theorem dropStart?_append (p t : List Char) : dropStart? p (p ++ t) = some t := by
  induction p with
  | nil => rfl
  | cons c p ih => rw [List.cons_append, dropStart?, if_pos rfl, ih]

theorem length_of_splitFirst {p : Char → Bool} {t a b : List Char}
    (h : splitFirst p t = some (a, b)) : b.length < t.length := by
  induction t generalizing a with
  | nil => cases h
  | cons c t ih =>
    rw [splitFirst] at h
    split at h
    · cases h; simp
    · obtain ⟨⟨a', b'⟩, hab, h⟩ := Option.map_eq_some_iff.1 h
      cases h
      simpa using Nat.lt_succ_of_lt (ih hab)

@[simp] theorem linesKept_flatten (t : List Char) : (linesKept t).flatten = t := by
  induction t with
  | nil => rfl
  | cons c t ih =>
    rw [linesKept]
    split
    · simp_all
    · cases h : linesKept t with
      | nil => rw [h] at ih; simp_all
      | cons l ls => rw [h] at ih; simp_all

theorem fields_ne_nil (p : Char → Bool) (t : List Char) : fields p t ≠ [] := by
  cases t with
  | nil => simp [fields]
  | cons c t =>
    rw [fields]
    split
    · simp
    · split <;> simp

end MessageHarvest.Text
