import MessageHarvest.Json.Basic
import MessageHarvest.Text.Number

/-! # Records in JSON

    A record with named fields is written as an object, or as an array with
    the values of its fields in order, of which the last ones may be missing.
    An object has no other members and none twice. The readers of single
    values accept one shape each and give `none` for every other. -/

namespace MessageHarvest.Json

/-- The values that a record gives to the named fields. -/
def fields? (names : List String) : Json → Option (List (Option Json))
  | object ms =>
    if ms.all (fun m => names.contains m.1) && decide (ms.map Prod.fst).Nodup then
      some (names.map fun n => (ms.find? (fun m => m.1 == n)).map Prod.snd)
    else none
  | array vs =>
    if vs.length ≤ names.length then
      some (vs.map some ++ List.replicate (names.length - vs.length) none)
    else none
  | _ => none

/-- A text. -/
def text? : Json → Option String
  | string s => some s
  | _ => none

/-- A truth value. -/
def bool? : Json → Option Bool
  | bool b => some b
  | _ => none

/-- A count: a number without sign, fraction and exponent that fits in 64 bits. -/
def count? : Json → Option Nat
  | number s => Text.digitsCount? s.toList
  | _ => none

/-- A list of values of one shape. -/
def list? {α : Type} (item? : Json → Option α) : Json → Option (List α)
  | array vs => vs.mapM item?
  | _ => none

/-- `null`, or a value of one shape. -/
def nullable? {α : Type} (value? : Json → Option α) : Json → Option (Option α)
  | null => some none
  | v => (value? v).map some

/-- A field that has to be there. -/
def required {α : Type} (value? : Json → Option α) (field : Option Json) : Option α :=
  field.bind value?

/-- A field with a default. -/
def defaulted {α : Type} (value? : Json → Option α) (default : α) : Option Json → Option α
  | some v => value? v
  | none => some default

end MessageHarvest.Json
