import MessageHarvest.Json.Record
import MessageHarvest.Rule.Basic

/-! # Rules as JSON records -/

namespace MessageHarvest

namespace MethodRule

/-- The rule that a record describes. -/
def ofJson? (v : Json) : Option MethodRule := do
  match ← v.fields? ["name", "singularIndex", "pluralIndex"] with
  | [name, singular, plural] =>
    return ⟨← Json.required Json.text? name, ← Json.defaulted Json.count? 0 singular,
      ← Json.defaulted (Json.nullable? Json.count?) none plural⟩
  | _ => none

/-- The record of a rule; the plural index is left out if there is none. -/
def toJson (r : MethodRule) : Json :=
  .object ([("name", Json.string r.name), ("singularIndex", .ofNat r.singularIndex)] ++
    (r.pluralIndex.map fun i => ("pluralIndex", Json.ofNat i)).toList)

end MethodRule

namespace AnnotationRule

/-- The rule that a record describes. -/
def ofJson? (v : Json) : Option AnnotationRule := do
  match ← v.fields? ["name", "fields"] with
  | [name, fields] =>
    return ⟨← Json.required Json.text? name,
      ← Json.defaulted (Json.list? Json.text?) ["value"] fields⟩
  | _ => none

/-- The record of a rule. -/
def toJson (r : AnnotationRule) : Json :=
  .object [("name", .string r.name), ("fields", .ofStrings r.fields)]

end AnnotationRule

end MessageHarvest
