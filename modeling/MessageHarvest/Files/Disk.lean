import MessageHarvest.Files.System

/-! # Disks

    A disk is a file system that is a plain value: the files and directories
    by their names from the root, and a current directory. There are no links.

    Steps that change the disk may be refused: `refuse` says which ones, so a
    statement about all disks speaks about every way in which they can fail.
    A refused step changes nothing, except that a write may break off. -/

namespace MessageHarvest

/-- Names from the root down to a place. -/
abbrev Place := List String

/-- What a disk keeps at a place. -/
inductive Disk.Content where
  | directory
  | file (bytes : Bytes)
  deriving DecidableEq, Repr, Inhabited

/-- What a disk keeps at a place other than the root. -/
structure Disk.Entry where
  place : Place
  content : Disk.Content
  deriving DecidableEq, Repr, Inhabited

/-- A step that changes a disk. -/
inductive Disk.Step where
  | makeDirectory (place : Place)
  | write (place : Place)
  | rename (source target : Place)
  | remove (place : Place)
  deriving DecidableEq, Repr, Inhabited

/-- How a step is refused. -/
structure Disk.Refusal where
  error : IoError
  /-- What a write that breaks off has written. -/
  written : Option Bytes := none
  deriving DecidableEq, Repr, Inhabited

/-- Files and directories, and where the program runs. -/
structure Disk where
  entries : Sorted Disk.Entry Disk.Entry.place
  here : Place := []
  refuse : Disk.Step → Option Disk.Refusal := fun _ => none

namespace Disk

/-- A disk without files. -/
def empty : Disk := { entries := .empty }

instance : Inhabited Disk := ⟨empty⟩

/-! ## Places -/

/-- What is at a place. -/
def content? (d : Disk) (p : Place) : Option Content :=
  if p = [] then some .directory else (d.entries.find? p).map Entry.content

/-- The kind of some content. -/
def Content.kind : Content → FileKind
  | directory => .directory
  | file _ => .file

/-- Puts content at a place. -/
def put (p : Place) (c : Content) (d : Disk) : Disk :=
  { d with
    entries := d.entries.insertWith (fun e => { e with content := c }) (fun _ => rfl) ⟨p, c⟩ }

/-- Removes what is at a place. -/
def erase (p : Place) (d : Disk) : Disk := { d with entries := d.entries.erase p }

/-- Puts content at a place, and directories at the missing places above it. -/
def install (p : Place) (c : Content) (d : Disk) : Disk :=
  let above := (List.range p.length).map p.take
  let d := above.foldl (fun d q => if (d.content? q).isSome then d else d.put q .directory) d
  d.put p c

/-- Removes what is at a place and below it. -/
def prune (p : Place) (d : Disk) : Disk :=
  ((d.entries.toList.map Entry.place).filter p.isPrefixOf).foldl (fun d q => d.erase q) d

/-- The files of a disk with their places. -/
def files (d : Disk) : List (Place × Bytes) :=
  d.entries.toList.filterMap fun e =>
    match e.content with
    | .file bytes => some (e.place, bytes)
    | .directory => none

/-! ## Paths -/

/-- The place that one name leads to from a directory. -/
def step (place : Place) (name : List Char) : Place :=
  if name = ['.'] then place
  else if name = ['.', '.'] then place.dropLast
  else place ++ [String.ofList name]

/-- The place that names lead to. All but the last one have to lead to
    directories. -/
def follow (d : Disk) : Place → List (List Char) → Except IoError Place
  | place, [] => .ok place
  | place, name :: names =>
    match d.content? place with
    | none => .error .notFound
    | some (.file _) => .error .notADirectory
    | some .directory =>
      if Text.byteLength name > 255 then .error .nameTooLong
      else d.follow (step place name) names

/-- The names of a text between slashes, without empty ones. -/
def names (t : List Char) : List (List Char) := (Path.parts t).filter fun n => !n.isEmpty

/-- The place that the names of a path lead to. -/
def locateNames (d : Disk) (p : Path) (ns : List (List Char)) : Except IoError Place :=
  if p.text = "" then .error .notFound
  else if p.text.toList.contains '\x00' then .error .nulInName
  else if Text.byteLength p.text.toList > 4095 then .error .nameTooLong
  else d.follow (if p.isAbsolute then [] else d.here) ns

/-- Whether a path ends in a slash. -/
def endsInSlash (p : Path) : Bool := p.text.toList.getLast? == some '/'

/-- The place of a path. A path that ends in a slash leads to a directory. -/
def locate (d : Disk) (p : Path) : Except IoError Place :=
  let ns := names p.text.toList
  d.locateNames p (if endsInSlash p then ns ++ [['.']] else ns)

/-- The place of a path at which a directory is to be made. -/
def locateNew (d : Disk) (p : Path) : Except IoError Place :=
  d.locateNames p (names p.text.toList)

/-- The place of a path, and what is there. -/
def find? (d : Disk) (p : Path) : Option (Place × Content) :=
  match d.locate p with
  | .ok place => (d.content? place).map fun c => (place, c)
  | .error _ => none

/-- The absolute path of a place. -/
def pathOf (p : Place) : Path := ⟨"/" ++ "/".intercalate p⟩

/-! ## Looking -/

/-- The names in a directory, and what stands there. -/
def childrenAt (d : Disk) (place : Place) : List (String × FileKind) :=
  d.entries.toList.filterMap fun e =>
    match e.place.getLast? with
    | some name => if e.place.dropLast = place then some (name, e.content.kind) else none
    | none => none

/-- What stands below a place. -/
def below (d : Disk) (place : Place) : List (List String × FileKind) :=
  d.entries.toList.filterMap fun e =>
    if place.isPrefixOf e.place && e.place != place then
      some (e.place.drop place.length, e.content.kind)
    else none

/-- The content of a file. -/
def readAt (d : Disk) (p : Path) : Except IoError Bytes := do
  match d.content? (← d.locate p) with
  | none => .error .notFound
  | some .directory => .error .isADirectory
  | some (.file bytes) => .ok bytes

/-! ## Changes -/

/-- Makes a directory. -/
def makeDirectoryAt (p : Path) (d : Disk) : Except IoError Unit × Disk :=
  match d.locateNew p with
  | .error e => (.error e, d)
  | .ok place =>
    if (d.content? place).isSome then (.error .alreadyExists, d)
    else match d.refuse (.makeDirectory place) with
      | some r => (.error r.error, d)
      | none => (.ok (), d.put place .directory)

/-- Writes a file. -/
def writeAt (p : Path) (bytes : Bytes) (d : Disk) : Except IoError Unit × Disk :=
  match d.locateNew p with
  | .error e => (.error e, d)
  | .ok place =>
    if endsInSlash p || d.content? place = some .directory then (.error .isADirectory, d)
    else match d.refuse (.write place) with
      | some r =>
        (.error r.error,
          match r.written with
          | some part => d.put place (.file part)
          | none => d)
      | none => (.ok (), d.put place (.file bytes))

/-- Moves a file. -/
def renameAt (source target : Path) (d : Disk) : Except IoError Unit × Disk :=
  match d.locate source, d.locateNew target with
  | .error e, _ | .ok _, .error e => (.error e, d)
  | .ok old, .ok new =>
    match d.content? old with
    | none => (.error .notFound, d)
    | some .directory => (.error .isADirectory, d)
    | some (.file bytes) =>
      let last := (names target.text.toList).getLast?
      if last = none || last = some ['.'] || last = some ['.', '.'] then (.error .busy, d)
      else if endsInSlash target then (.error .notADirectory, d)
      else if d.content? new = some .directory then (.error .isADirectory, d)
      else match d.refuse (.rename old new) with
        | some r => (.error r.error, d)
        | none => (.ok (), (d.erase old).put new (.file bytes))

/-- Removes a file. -/
def removeAt (p : Path) (d : Disk) : Except IoError Unit × Disk :=
  match d.locate p with
  | .error e => (.error e, d)
  | .ok place =>
    match d.content? place with
    | none => (.error .notFound, d)
    | some .directory => (.error .isADirectory, d)
    | some (.file _) =>
      match d.refuse (.remove place) with
      | some r => (.error r.error, d)
      | none => (.ok (), d.erase place)

instance : FileSystem (StateM Disk) where
  kind? p := do return ((← get).find? p).map fun f => f.2.kind
  canonical? p := do return ((← get).find? p).map fun f => pathOf f.1
  children p := do
    match (← get).find? p with
    | some (place, .directory) => return (← get).childrenAt place
    | _ => return []
  walk p := do
    match (← get).find? p with
    | some (place, .directory) => return ⟨([], .directory) :: (← get).below place, 0⟩
    | some (_, .file _) => return ⟨[([], .file)], 0⟩
    | none => return ⟨[], 1⟩
  read p := do return (← get).readAt p
  makeDirectory p := fun d => d.makeDirectoryAt p
  write p bytes := fun d => d.writeAt p bytes
  rename source target := fun d => d.renameAt source target
  remove p := fun d => d.removeAt p

end Disk

end MessageHarvest
