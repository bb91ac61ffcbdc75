import MessageHarvest.Command.Arguments
import MessageHarvest.Command.Report

/-! # Running commands -/

namespace MessageHarvest.Command

variable {m : Type → Type} [Monad m] [FileSystem m]

/-- Extracts the messages of a project. -/
def runExtract (o : ExtractOptions) : ExceptT CommandError m Report := do
  let p ← Project.load o
  return .ofExtraction p (← p.extract o.dryRun)

/-- Writes the configuration file with its defaults into the current
    directory, unless there is one. -/
def runInit : ExceptT CommandError m Report := do
  let path : Path := ⟨Config.fileName⟩
  if ← (FileSystem.isThere path : m Bool) then return .alreadyThere
  FileSystem.attempt .configUnwritten
    (FileSystem.write path (Text.utf8 Config.standardText.toList))
  return .created

/-- Runs a command. -/
def run : Command → ExceptT CommandError m Report
  | extract o => runExtract o
  | init => runInit
  | overview => return { stdout := overviewHelp.render }

end MessageHarvest.Command
