import MessageHarvest.Config.Basic
import MessageHarvest.Rule.Record

/-! # Configurations as JSON records -/

namespace MessageHarvest.Config

/-- The names of the entries. -/
def names : List String :=
  ["includes", "ignores", "output", "encoding", "removeUnused", "keywords", "annotations",
   "headerComments", "headerFields"]

/-- The configuration that a record describes. -/
def ofJson? (v : Json) : Option Config := do
  let standard : Config := {}
  let texts := Json.list? Json.text?
  match ← v.fields? names with
  | [includes, ignores, output, encoding, removeUnused, keywords, annotations, comments, fields] =>
    return {
      includes := ← Json.defaulted texts standard.includes includes
      ignores := ← Json.defaulted texts standard.ignores ignores
      output := ← Json.defaulted Json.text? standard.output output
      encoding := ← Json.defaulted Json.text? standard.encoding encoding
      removeUnused := ← Json.defaulted Json.bool? standard.removeUnused removeUnused
      keywords := ← Json.defaulted (Json.list? MethodRule.ofJson?) standard.keywords keywords
      annotations :=
        ← Json.defaulted (Json.list? AnnotationRule.ofJson?) standard.annotations annotations
      headerComments := ← Json.defaulted texts standard.headerComments comments
      headerFields := ← Json.defaulted texts standard.headerFields fields }
  | _ => none

/-- The record of a configuration. -/
def toJson (c : Config) : Json :=
  .object
    [("includes", .ofStrings c.includes), ("ignores", .ofStrings c.ignores),
     ("output", .string c.output), ("encoding", .string c.encoding),
     ("removeUnused", .bool c.removeUnused),
     ("keywords", .array (c.keywords.map MethodRule.toJson)),
     ("annotations", .array (c.annotations.map AnnotationRule.toJson)),
     ("headerComments", .ofStrings c.headerComments),
     ("headerFields", .ofStrings c.headerFields)]

/-- The text of the configuration in which every entry has its default. -/
def standardText : String := (toJson {}).pretty

end MessageHarvest.Config
