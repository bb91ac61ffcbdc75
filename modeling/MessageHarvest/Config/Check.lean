import MessageHarvest.Config.Basic
import MessageHarvest.Encoding.Label
import MessageHarvest.Files.Wildcard

/-! # Checking configurations

    Entries are checked in a fixed order: wildcards, output, encoding, header
    fields, rules. The first fault counts. -/

namespace MessageHarvest.Config

/-- What is wrong with a configuration. -/
inductive Fault where
  | ignoredWildcard (entry : String) (fault : Wildcard.Fault)
  | includedWildcard (entry : String) (fault : Wildcard.Fault)
  | blankOutput
  | unknownEncoding (unknown : Encoding.UnknownLabel)
  | malformedField (field : String)
  | rules (error : RuleError)
  deriving DecidableEq, Repr, Inhabited

/-- The error message. -/
def Fault.message : Fault → String
  | ignoredWildcard e f => "Invalid glob pattern in 'ignores': \"" ++ e ++ "\": " ++ f.message
  | includedWildcard e f => "Invalid glob pattern in 'includes': \"" ++ e ++ "\": " ++ f.message
  | blankOutput => "'output' must not be empty"
  | unknownEncoding u => "Invalid 'encoding': \"" ++ u.label ++ "\": " ++ u.message
  | malformedField f =>
    "Invalid entry in 'headerFields': \"" ++ f ++ "\" (expected \"Name: value\")"
  | rules e => "Invalid extraction rules: " ++ e.message

/-- Checks that a text is a wildcard. -/
def checkWildcard (cause : String → Wildcard.Fault → Fault) (entry : String) :
    Except Fault Unit :=
  match Wildcard.parse entry.toList with
  | .ok _ => .ok ()
  | .error f => .error (cause entry f)

/-- Whether a header field is one line with a name before a colon. -/
def isField (field : String) : Bool :=
  !field.toList.contains '\n' &&
  match Text.splitFirst (· == ':') field.toList with
  | some (name, _) => !name.all Text.isBlank
  | none => false

/-- Checks a configuration. -/
def check (c : Config) : Except Fault Unit := do
  c.ignores.forM (checkWildcard .ignoredWildcard)
  (c.includes.filter fun e => Wildcard.hasPlaceholder e.toList).forM
    (checkWildcard .includedWildcard)
  if blank c.output then throw .blankOutput
  let _ ← (Encoding.resolve c.encoding).mapError .unknownEncoding
  if let some f := c.headerFields.find? (fun f => !isField f) then throw (.malformedField f)
  let _ ← c.registry.mapError .rules

end MessageHarvest.Config
