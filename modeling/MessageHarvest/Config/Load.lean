import MessageHarvest.Config.Check
import MessageHarvest.Config.Record
import MessageHarvest.Files.System
import MessageHarvest.Json.Parser
import MessageHarvest.Text.Display

/-! # Loading configurations

    The configuration file is looked for in a directory and then in the ones
    above it, up to the first that has a `.git`. Without one, every entry has
    its default. -/

namespace MessageHarvest.Config

/-- The name of the configuration file. -/
def fileName : String := ".glotpotrc.json"

/-- Why a configuration cannot be loaded. -/
inductive LoadError where
  | unreadable (path : Path) (error : IoError)
  | malformed (path : Path)
  | invalid (path : Path) (fault : Fault)
  deriving DecidableEq, Repr, Inhabited

/-- A path in an error message. -/
def shown (p : Path) : String := String.ofList (Text.displayPath p.text.toList)

/-- The error message. -/
def LoadError.message : LoadError → String
  | unreadable p e => "Failed to read config file: " ++ shown p ++ ": " ++ e.message
  | malformed p => "Failed to parse config file: " ++ shown p
  | invalid p f => "Invalid config file: " ++ shown p ++ ": " ++ f.message

/-- A configuration and the file that it comes from. -/
structure Loaded where
  config : Config := {}
  source? : Option Path := none
  deriving DecidableEq, Repr, Inhabited

variable {m : Type → Type} [Monad m] [FileSystem m]

/-- The configuration file in the first of some directories that has one, if
    none before it has a `.git`. -/
def findIn : List Path → m (Option Path)
  | [] => return none
  | dir :: above => do
    let file := dir.child fileName
    if ← FileSystem.isThere file then return some file
    if ← FileSystem.isThere (dir.child ".git") then return none
    findIn above

/-- The configuration file for a directory. -/
def find? (dir : Path) : m (Option Path) := do
  findIn ((← FileSystem.canonical? dir).getD dir).ancestors

/-- The valid configuration that a text describes. -/
def ofText (path : Path) (text : String) : Except LoadError Config := do
  match (Json.parse? text).bind ofJson? with
  | none => throw (.malformed path)
  | some c =>
    c.check.mapError (.invalid path)
    return c

/-- Loads the configuration for a directory. -/
def load (dir : Path) : ExceptT LoadError m Loaded := do
  match ← (find? dir : m (Option Path)) with
  | none => return {}
  | some path =>
    let text ← FileSystem.attempt (.unreadable path) (FileSystem.readText path)
    let config ← ofText path text
    return ⟨config, some path⟩

end MessageHarvest.Config
