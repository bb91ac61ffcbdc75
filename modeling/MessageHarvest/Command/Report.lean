import MessageHarvest.Extraction.Project
import MessageHarvest.Text.Display

/-! # Reports

    What a command prints when it has done its work. -/

namespace MessageHarvest

/-- What a command prints, and its exit status. -/
structure Report where
  exit : Nat := 0
  stdout : String := ""
  stderr : String := ""
  deriving DecidableEq, Repr, Inhabited

namespace Report

/-- The word for one thing or the word for several things. -/
def plural (count : Nat) (one many : String) : String := if count = 1 then one else many

/-- A number of things. -/
def counted (count : Nat) (one many : String) : String :=
  toString count ++ " " ++ plural count one many

/-- The first line about an extraction. -/
def headline (p : Project) (e : Extraction) : String :=
  "✓ Extracted " ++ counted e.store.size "message" "messages" ++ " from " ++
    toString p.sources.files.size ++ " source " ++ plural p.sources.files.size "file" "files" ++
    " (" ++ toString e.summary.added ++ " new, " ++ toString e.summary.removed ++ " removed) " ++
    (if e.written then "-> " ++ p.output.text else "(dry run, nothing written)") ++ "\n"

/-- The lines about unused messages that were kept. -/
def retainedLines (retained : List String) : String :=
  if retained.isEmpty then ""
  else
    "  - kept " ++ toString retained.length ++ " unused " ++
      plural retained.length "message" "messages" ++
      " (--keep-unused or \"removeUnused\": false in config):\n" ++
      String.join (retained.map fun s =>
        "      " ++ String.ofList (Text.display s.toList) ++ "\n")

/-- The warning about places that could not be looked at. -/
def skippedWarning (skipped : Nat) : String :=
  if skipped = 0 then ""
  else "warning: " ++ toString skipped ++
    " path(s) skipped due to access errors (use -v for details)\n"

/-- The report on an extraction. -/
def ofExtraction (p : Project) (e : Extraction) : Report where
  stdout := headline p e ++ retainedLines e.summary.retained
  stderr := skippedWarning p.sources.skipped

/-- The report on a new configuration file. -/
def created : Report where
  stdout := "✓ Created " ++ Config.fileName ++ "\n"

/-- The report on a configuration file that was there before. -/
def alreadyThere : Report where
  exit := 1
  stderr := "Error: " ++ Config.fileName ++ " already exists\n"

end Report

end MessageHarvest
