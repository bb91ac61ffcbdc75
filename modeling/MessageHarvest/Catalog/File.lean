import MessageHarvest.Catalog.Entry
import MessageHarvest.Catalog.Render
import MessageHarvest.Encoding.Label
import MessageHarvest.Files.System

/-! # Catalog files

    A catalog is written to a temporary file next to it, which then takes its
    place. So the catalog that was there before is either replaced as a whole
    or left alone, and a failure removes the temporary file again. -/

namespace MessageHarvest

/-- Why a catalog cannot be read or written. -/
inductive CatalogError where
  | unknownEncoding (unknown : Encoding.UnknownLabel)
  | malformed (path : Path) (fault : Catalog.Fault)
  | undecodable (path : Path) (encoding : Encoding)
  | unencodable (path : Path) (encoding : Encoding)
  | inaccessible (path : Path) (error : IoError)
  deriving DecidableEq, Repr, Inhabited

/-- The error message. -/
def CatalogError.message : CatalogError → String
  | unknownEncoding u => u.message
  | malformed p f => p.text ++ ":" ++ toString f.line ++ ": " ++ f.problem.message
  | undecodable p e => p.text ++ " is not valid " ++ e.name
  | unencodable p e =>
    "Catalog for " ++ p.text ++ " contains text that cannot be encoded as " ++ e.name
  | inaccessible p e => "Failed to access " ++ p.text ++ ": " ++ e.message

namespace Catalog

/-- The store of the bytes of a catalog. -/
def decode (path : Path) (encoding : Encoding) (bytes : Bytes) : Except CatalogError Store :=
  match encoding.decode? bytes with
  | none => .error (.undecodable path encoding)
  | some text => (parse text).mapError (.malformed path)

/-- The bytes of a catalog. -/
def encode (path : Path) (encoding : Encoding) (store : Store) (header : Header) :
    Except CatalogError Bytes :=
  match encoding.encode? (render store header encoding.name) with
  | none => .error (.unencodable path encoding)
  | some bytes => .ok bytes

/-- The temporary file of a catalog. -/
def temporary (path : Path) : Path :=
  path.withFileName ("." ++ path.fileName?.getD "" ++ ".tmp")

variable {m : Type → Type} [Monad m] [FileSystem m]

/-- Reads a catalog. -/
def load (path : Path) (encoding : Encoding) : ExceptT CatalogError m Store := do
  let bytes ← FileSystem.attempt (.inaccessible path) (FileSystem.read path)
  decode path encoding bytes

/-- Makes the directory that a file is in. -/
def makeRoom (path : Path) : ExceptT CatalogError m Unit :=
  match path.parent? with
  | some parent =>
    if parent.text = "" then return ()
    else FileSystem.attempt (.inaccessible parent) (FileSystem.makeDirectories parent)
  | none => return ()

/-- Replaces a file by way of its temporary file. -/
def replaceFile (path : Path) (bytes : Bytes) : m (Except IoError Unit) := do
  let temp := temporary path
  let replaced ← match ← FileSystem.write temp bytes with
    | .ok () => FileSystem.rename temp path
    | .error e => pure (.error e)
  match replaced with
  | .ok () => return .ok ()
  | .error e =>
    -- whether the temporary file was there at all does not matter
    let _ ← FileSystem.remove temp
    return .error e

/-- Writes a catalog. -/
def save (path : Path) (encoding : Encoding) (store : Store) (header : Header) :
    ExceptT CatalogError m Unit := do
  let bytes ← encode path encoding store header
  makeRoom path
  FileSystem.attempt (.inaccessible path) (replaceFile path bytes)

end Catalog

end MessageHarvest
