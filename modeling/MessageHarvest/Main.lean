import MessageHarvest.Command.Run

/-! # The program

    Runs a command line on real files. -/

namespace MessageHarvest.Main

/-- The error of the system that an exception stands for. -/
def ioError : IO.Error → IoError
  | .noFileOrDirectory .. => .notFound
  | .alreadyExists .. => .alreadyExists
  | .inappropriateType _ code details | .permissionDenied _ code details
  | .resourceExhausted _ code details | .noSuchThing _ code details => .other details code.toNat
  | .resourceBusy code details | .otherError code details
  | .unsupportedOperation code details | .hardwareFault code details
  | .unsatisfiedConstraints code details => .other details code.toNat
  | e => .other (toString e) 0

/-- An action with its exception as a value. -/
def attempt {α : Type} (action : IO α) : IO (Except IoError α) := do
  return (← action.toBaseIO).mapError ioError

/-- A path as the system takes it. -/
def entry (p : Path) : IO.FS.DirEntry := ⟨⟨"."⟩, p.text⟩

/-- What a type of file is. -/
def kind : IO.FS.FileType → FileKind
  | .dir => .directory
  | .file => .file
  | _ => .other

/-- What stands at a path. -/
def kind? (p : Path) : IO (Option FileKind) := do
  if p.text = "" then return none
  match ← (entry p).path.metadata.toBaseIO with
  | .ok data => return some (kind data.type)
  | .error _ => return none

/-- The names in a directory, ascending. -/
def names (p : Path) : IO (Except IoError (List String)) := do
  match ← attempt (entry p).path.readDir with
  | .ok es => return .ok ((es.toList.map IO.FS.DirEntry.fileName).mergeSort fun a b => a ≤ b)
  | .error e => return .error e

/-- What stands below a directory; links are not followed. -/
partial def walkBelow (p : Path) (above : List String) : IO Walk := do
  match ← names p with
  | .error _ => return ⟨[], 1⟩
  | .ok ns =>
    let mut places := []
    let mut skipped := 0
    for n in ns do
      let q := p.child n
      let here := above ++ [n]
      match ← (entry q).path.symlinkMetadata.toBaseIO with
      | .error _ => skipped := skipped + 1
      | .ok data =>
        places := places ++ [(here, kind data.type)]
        if kind data.type = .directory then
          let w ← walkBelow q here
          places := places ++ w.places
          skipped := skipped + w.skipped
    return ⟨places, skipped⟩

instance : FileSystem IO where
  kind? := kind?
  canonical? p := do
    if (← kind? p).isNone then return none
    return some ⟨(← IO.FS.realPath (entry p).path).toString⟩
  children p := do
    match ← names p with
    | .error _ => return []
    | .ok ns => ns.mapM fun n => do return (n, (← kind? (p.child n)).getD .other)
  walk p := do
    match ← kind? p with
    | none => return ⟨[], 1⟩
    | some .directory =>
      let w ← walkBelow p []
      return ⟨([], .directory) :: w.places, w.skipped⟩
    | some k => return ⟨[([], k)], 0⟩
  read p := do
    if (← kind? p) = some .directory then return .error .isADirectory
    return (← attempt (IO.FS.readBinFile (entry p).path)).map ByteArray.toList
  makeDirectory p := attempt (IO.FS.createDir (entry p).path)
  write p bytes := attempt (IO.FS.writeBinFile (entry p).path ⟨bytes.toArray⟩)
  rename old new := attempt (IO.FS.rename (entry old).path (entry new).path)
  remove p := attempt (IO.FS.removeFile (entry p).path)

end MessageHarvest.Main

open MessageHarvest in
/-- Runs the command that the words of a command line ask for. -/
def main (words : List String) : IO UInt32 := do
  match Command.parse (← IO.getEnv Command.rootVariable) words with
  | .error (.help text) | .error (.version text) =>
    IO.print text
    return 0
  | .error (.usage error) =>
    IO.eprintln ("error: " ++ error.message)
    return 2
  | .ok command =>
    match ← (Command.run command : ExceptT CommandError IO Report).run with
    | .error error =>
      IO.eprintln ("Error: " ++ error.message)
      return 2
    | .ok report =>
      IO.print report.stdout
      IO.eprint report.stderr
      return report.exit.toUInt32
