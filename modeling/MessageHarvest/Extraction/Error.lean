import MessageHarvest.Catalog.File
import MessageHarvest.Config.Load
import MessageHarvest.Constant.Evaluator
import MessageHarvest.Source.Model

/-! # Errors of an extraction

    Every error ends an extraction before a catalog is written. -/

namespace MessageHarvest

/-- Why no messages can be taken from the sources. -/
inductive SourceError where
  | malformed (error : SyntaxError)
  | missing (path : Path)
  | unreadable (path : Path) (error : IoError)
  | evaluation (path : String) (error : EvalError)
  | rules (error : RuleError)

/-- The error message, followed by the one of its cause. -/
def SourceError.message : SourceError → String
  | malformed e => e.message
  | missing p => "Source root does not exist: " ++ p.text
  | unreadable p e => "Failed to read " ++ p.text ++ ": " ++ e.message
  | evaluation p e => p ++ ": " ++ e.message ++ ": " ++ e.message
  | rules e => "Invalid extraction rule: " ++ e.message ++ ": " ++ e.message

/-- Why a command fails. -/
inductive CommandError where
  | config (error : Config.LoadError)
  | source (error : SourceError)
  | catalog (error : CatalogError)
  /-- The catalog at a path cannot be written. -/
  | unwritten (path : Path) (error : CatalogError)
  /-- The new configuration file cannot be written. -/
  | configUnwritten (error : IoError)

/-- The error message, followed by the one of its cause. -/
def CommandError.message : CommandError → String
  | config e => e.message
  | source e => e.message
  | catalog e => e.message
  | unwritten p e => "Failed to write " ++ p.text ++ ": " ++ e.message
  | configUnwritten e => "Failed to write " ++ Config.fileName ++ ": " ++ e.message

end MessageHarvest
