import MessageHarvest.Extraction.Error
import MessageHarvest.Files.Discovery
import MessageHarvest.Scan
import MessageHarvest.Message.Reconcile

/-! # Extracting the messages of a project

    A project is opened from the options of the command line, which come
    before the configuration file, which comes before the defaults. Then the
    messages of its source files are extracted, reconciled with the catalog
    of the run before, and written.

    All that can fail but the writing itself is done before anything is
    written. -/

namespace MessageHarvest

/-- The options of an extraction. -/
structure ExtractOptions where
  root? : Option Path := none
  verbose : Bool := false
  output? : Option Path := none
  keywords : List MethodRule := []
  annotations : List AnnotationRule := []
  encoding? : Option String := none
  keepUnused : Bool := false
  dryRun : Bool := false
  deriving DecidableEq, Repr, Inhabited

/-- Adds rules one by one, each of which takes the place of one of its name. -/
def overrideRules {α : Type} (name : α → String) (rules extra : List α) : List α :=
  extra.foldl (fun rs r => rs.filter (fun s => name s != name r) ++ [r]) rules

/-- The configuration with the options of an extraction put first. -/
def Config.override (c : Config) (o : ExtractOptions) : Config :=
  { c with
    output := (o.output?.map Path.text).getD c.output
    encoding := o.encoding?.getD c.encoding
    keywords := overrideRules MethodRule.name c.keywords o.keywords
    annotations := overrideRules AnnotationRule.name c.annotations o.annotations }

/-- A project that is ready to be extracted. -/
structure Project where
  config : Config
  /-- The paths of occurrences are relative to it. -/
  root : Path
  /-- The path of the catalog. -/
  output : Path
  sources : SourceFiles
  removeUnused : Bool
  registry : Registry
  encoding : Encoding

/-- What an extraction did. -/
structure Extraction where
  store : Store
  summary : Reconciliation
  written : Bool

namespace Project

/-- The path of the catalog of a configuration below a root. -/
def outputPath (root : Path) (c : Config) : Path := root.join ⟨c.output⟩

variable {m : Type → Type} [Monad m] [FileSystem m]

/-- Opens the project that some options describe. -/
def load (o : ExtractOptions) : ExceptT CommandError m Project := do
  let root := o.root?.getD ⟨"."⟩
  unless ← (FileSystem.isDirectory root : m Bool) do throw (.source (.missing root))
  let loaded ← (Config.load root : ExceptT Config.LoadError m _).adapt .config
  let config := loaded.config.override o
  let encoding ← (Encoding.resolve config.encoding).mapError fun u =>
    CommandError.catalog (.unknownEncoding u)
  let registry ← config.registry.mapError fun e => CommandError.source (.rules e)
  match ← (SourceFiles.discover root config.includes config.ignores : m _) with
  | .error p => throw (.source (.missing p))
  | .ok sources =>
    return {
      config, root, sources, registry, encoding
      output := outputPath root config
      removeUnused := config.removeUnused && !o.keepUnused }

/-- The messages of one source file, given its text. -/
def scanText (p : Project) (file : Path) (text : String) : Except SourceError Store := do
  let path := p.root.relativeTo file
  let u ← (SourceUnit.parse path text).mapError .malformed
  (u.scan p.registry Evaluator.standard).mapError (.evaluation path)

/-- The messages of one source file. -/
def scanFile (p : Project) (file : Path) : ExceptT SourceError m Store := do
  let text ← FileSystem.attempt (.unreadable file) (FileSystem.readText file)
  p.scanText file text

/-- The messages of all source files. -/
def fresh (p : Project) : ExceptT SourceError m Store := do
  let stores ← p.sources.files.toList.mapM p.scanFile
  return stores.foldl Store.merge .empty

/-- The messages of the catalog of the run before, if there is one. -/
def previous (p : Project) : ExceptT CatalogError m (Option Store) := do
  if ← (FileSystem.isThere p.output : m Bool) then return some (← Catalog.load p.output p.encoding)
  else return none

/-- Extracts the messages and writes the catalog, unless it is a dry run. -/
def extract (p : Project) (dryRun : Bool) : ExceptT CommandError m Extraction := do
  let fresh ← (p.fresh : ExceptT SourceError m _).adapt .source
  let previous ← (p.previous : ExceptT CatalogError m _).adapt .catalog
  let (store, summary) := fresh.reconcile previous p.removeUnused
  unless dryRun do
    (Catalog.save p.output p.encoding store p.config.header :
      ExceptT CatalogError m Unit).adapt (.unwritten p.output)
  return ⟨store, summary, !dryRun⟩

end Project

end MessageHarvest
