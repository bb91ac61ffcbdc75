import MessageHarvest.Catalog.Render
import MessageHarvest.Rule.Registry

/-! # Configurations

    A configuration says which source files belong to a project, what is
    translatable in them and how the catalog is written. Every entry has a
    default. -/

namespace MessageHarvest

/-- How messages are extracted. -/
structure Config where
  /-- Paths or wildcards of places with source files; none means the root. -/
  includes : List String := ["src/main/java"]
  /-- Paths or wildcards of files that are left out. -/
  ignores : List String := []
  /-- The path of the catalog. -/
  output : String := "src/main/po/keys.pot"
  /-- The label of the encoding of the catalog. -/
  encoding : String := "UTF-8"
  /-- Whether messages that no source file has any more are dropped. -/
  removeUnused : Bool := true
  keywords : List MethodRule :=
    [⟨"tr", 0, none⟩, ⟨"marktr", 0, none⟩, ⟨"trc", 1, none⟩, ⟨"trn", 0, some 1⟩,
     ⟨"trnc", 1, some 2⟩]
  annotations : List AnnotationRule := []
  headerComments : List String :=
    ["SOME DESCRIPTIVE TITLE.",
     "Copyright (C) YEAR THE PACKAGE'S COPYRIGHT HOLDER",
     "This file is distributed under the same license as the PACKAGE package.",
     "FIRST AUTHOR <EMAIL@ADDRESS>, YEAR.",
     ""]
  headerFields : List String :=
    ["Project-Id-Version: PACKAGE VERSION",
     "MIME-Version: 1.0",
     "Plural-Forms: nplurals=INTEGER; plural=EXPRESSION;"]
  deriving DecidableEq, Repr, Inhabited

namespace Config

/-- The rules. -/
def registry (c : Config) : Except RuleError Registry := Registry.build c.keywords c.annotations

/-- What the catalog starts with. -/
def header (c : Config) : Catalog.Header := ⟨c.headerComments, c.headerFields⟩

end Config

end MessageHarvest
