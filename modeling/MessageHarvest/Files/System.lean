import MessageHarvest.Encoding.Basic
import MessageHarvest.Files.Path

/-! # File systems

    What the program asks of the system that keeps its files. The programs on
    files are written for every monad with a `FileSystem`, so that they run
    on real files and can be reasoned about on disks that are plain values.

    Four steps change files: making a directory, writing, renaming and
    removing. Each of them may fail. -/

namespace MessageHarvest

/-- Why a step on files failed. -/
inductive IoError where
  | notFound
  | alreadyExists
  | notADirectory
  | isADirectory
  | busy
  | nameTooLong
  | nulInName
  /-- The content of a file is no text. -/
  | invalidText
  /-- Another error of the system, by its number. -/
  | other (text : String) (code : Nat)
  deriving DecidableEq, Repr, Inhabited

namespace IoError

/-- The text of an error of the system with its number. -/
def numbered (text : String) (code : Nat) : String :=
  text ++ " (os error " ++ toString code ++ ")"

/-- The error message. -/
def message : IoError → String
  | notFound => numbered "No such file or directory" 2
  | alreadyExists => numbered "File exists" 17
  | notADirectory => numbered "Not a directory" 20
  | isADirectory => numbered "Is a directory" 21
  | busy => numbered "Device or resource busy" 16
  | nameTooLong => numbered "File name too long" 36
  | nulInName => "file name contained an unexpected NUL byte"
  | invalidText => "stream did not contain valid UTF-8"
  | other text code => numbered text code

end IoError

/-- What stands at a path. -/
inductive FileKind where
  | file
  | directory
  | other
  deriving DecidableEq, Repr, Inhabited

/-- What is found at and below a path. -/
structure Walk where
  /-- The names that lead down to a place, and what stands there. -/
  places : List (List String × FileKind)
  /-- The number of places that could not be looked at. -/
  skipped : Nat
  deriving DecidableEq, Repr, Inhabited

/-- Access to files. -/
class FileSystem (m : Type → Type) where
  /-- What stands at a path. -/
  kind? : Path → m (Option FileKind)
  /-- The absolute path of what stands at a path. -/
  canonical? : Path → m (Option Path)
  /-- The names in a directory, ascending, and what stands there. -/
  children : Path → m (List (String × FileKind))
  /-- What stands at a path and below it, each directory before what is in it. -/
  walk : Path → m Walk
  /-- The content of a file. -/
  read : Path → m (Except IoError Bytes)
  /-- Makes a directory in one that exists. -/
  makeDirectory : Path → m (Except IoError Unit)
  /-- Writes a file. -/
  write : Path → Bytes → m (Except IoError Unit)
  /-- Moves a file, which replaces one that is there. -/
  rename : Path → Path → m (Except IoError Unit)
  /-- Removes a file. -/
  remove : Path → m (Except IoError Unit)

namespace FileSystem

variable {m : Type → Type} [Monad m]

/-- A step on files, with what its failure means. -/
def attempt {ε α : Type} (cause : IoError → ε) (step : m (Except IoError α)) : ExceptT ε m α :=
  ExceptT.mk do return (← step).mapError cause

variable [FileSystem m]

/-- Whether something stands at a path. -/
def isThere (p : Path) : m Bool := do return (← kind? p).isSome

/-- Whether a directory stands at a path. -/
def isDirectory (p : Path) : m Bool := do return (← kind? p) = some .directory

/-- The text of a file. -/
def readText (p : Path) : m (Except IoError String) := do
  match ← read p with
  | .error e => return .error e
  | .ok bytes =>
    match Text.ofUtf8? bytes with
    | some t => return .ok (String.ofList t)
    | none => return .error .invalidText

/-- Makes the first of some directories, each of which is in the next one,
    and the others as far as they are missing. -/
def makeNested : List Path → m (Except IoError Unit)
  | [] => return .ok ()
  | p :: above => do
    if p.text = "" then return .ok ()
    match ← makeDirectory p with
    | .ok () => return .ok ()
    | .error .notFound =>
      match ← makeNested above with
      | .error e => return .error e
      | .ok () => orThere p (← makeDirectory p)
    | .error e => orThere p (.error e)
where
  /-- A failure counts only if there is no directory. -/
  orThere (p : Path) (made : Except IoError Unit) : m (Except IoError Unit) := do
    match made with
    | .ok () => return .ok ()
    | .error e => if ← isDirectory p then return .ok () else return .error e

/-- Makes a directory and the missing ones above it. -/
def makeDirectories (p : Path) : m (Except IoError Unit) := makeNested p.ancestors

end FileSystem

end MessageHarvest
