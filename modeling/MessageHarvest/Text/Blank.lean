/-! # Blank characters and trimming

    Every place that trims text (keyword specifications, catalog lines,
    encoding labels, text block lines) uses one character class: the Unicode
    property White_Space. Text is worked on as a list of characters. -/

namespace MessageHarvest.Text

/-- The Unicode property White_Space. -/
def isBlank (c : Char) : Bool :=
  let n := c.toNat
  (9 ≤ n && n ≤ 13) || n == 0x20 || n == 0x85 || n == 0xA0 || n == 0x1680 ||
  (0x2000 ≤ n && n ≤ 0x200A) || n == 0x2028 || n == 0x2029 || n == 0x202F ||
  n == 0x205F || n == 0x3000

/-- Text without its leading blanks. -/
def trimStart (t : List Char) : List Char := t.dropWhile isBlank

/-- Text without its trailing blanks. -/
def trimEnd (t : List Char) : List Char := (t.reverse.dropWhile isBlank).reverse

/-- Text without the blanks on either side. -/
def trim (t : List Char) : List Char := trimEnd (trimStart t)

/-- Text without any blank at all. -/
def compact (t : List Char) : List Char := t.filter (fun c => !isBlank c)

@[simp] theorem trimStart_nil : trimStart [] = [] := rfl

@[simp] theorem trimEnd_nil : trimEnd [] = [] := rfl

@[simp] theorem trim_nil : trim [] = [] := rfl

theorem compact_append (s t : List Char) : compact (s ++ t) = compact s ++ compact t :=
  List.filter_append ..

end MessageHarvest.Text
