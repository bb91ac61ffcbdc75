import MessageHarvest.Files.System
import MessageHarvest.Files.Wildcard

/-! # Finding source files

    Source files are the regular files with the extension `java` at or below
    some places, except the ones that are ignored.

    * A place is named by a path, which has to exist, or by a wildcard, which
      stands for the directories that it matches.
    * An ignored path takes everything below it along. An ignored wildcard is
      matched against the path relative to the root.
    * Wildcards that cannot be read stand for nothing.

    Files are found once, whatever leads to them. -/

namespace MessageHarvest

namespace Wildcard

/-- The wildcards between the slashes of a text, without the last one if it
    is empty. -/
def ofParts (t : List Char) : Except Fault (List Wildcard) :=
  let ps := Path.parts t
  (if ps.getLast? = some [] then ps.dropLast else ps).mapM parse

/-- Whether a wildcard matches a name. -/
def matchesName (w : Wildcard) (name : String) : Bool := w.matches? name.toList

/-- Whether a path is the current directory. -/
def isHere (p : Path) : Bool := p.components == [.current]

/-- The path of a name in a directory; the names in the current directory
    stand for themselves. -/
def inside (p : Path) (name : String) : Path := if isHere p then ⟨name⟩ else p.child name

/-- The path of what stands below a directory. -/
def beneath (p : Path) (names : List String) : Path :=
  match names with
  | [] => p
  | n :: ns => (inside p n).descend ns

/-! ## The way that wildcards describe -/

/-- A leg of the way from a directory to the places that wildcards match. -/
inductive Leg where
  /-- A name without placeholders, which is looked up and not searched for. -/
  | name (text : String)
  /-- A name that a wildcard matches. -/
  | search (w : Wildcard)
  /-- Any number of directories, and behind them a name that a wildcard
      matches. At the end of the way it is at least one directory. -/
  | deep (last? : Option Wildcard)
  deriving DecidableEq, Repr, Inhabited

/-- The leg of a wildcard with nothing behind it that belongs to it. -/
def Leg.ofWildcard (w : Wildcard) : Leg :=
  match w.literal? with
  | some t => .name (String.ofList t)
  | none => if w.isRecursive then .deep none else .search w

/-- The way of some wildcards, one for each part. Of successive wildcards for
    any number of directories only one counts. -/
def legs : List Wildcard → List Leg
  | [] => []
  | [w] => [.ofWildcard w]
  | w :: v :: ws =>
    if !w.isRecursive then .ofWildcard w :: legs (v :: ws)
    else if v.isRecursive then legs (v :: ws)
    else .deep (some v) :: legs ws

variable {m : Type → Type} [Monad m] [FileSystem m]

/-- The paths that a leg leads to from a path. -/
def Leg.next (p : Path) : Leg → m (List Path)
  | .name n => do
    let reachable ←
      if n = "." || n = ".." then FileSystem.isDirectory p else FileSystem.isThere (inside p n)
    return if reachable then [inside p n] else []
  | .search w => do
    if !(← FileSystem.isDirectory p) then return []
    -- directories do not list `.` and `..`, so a part that starts with a dot is tried on them
    let dots := ["..", "."].filter fun d => w.startsWithDot && w.matchesName d
    let names := ((← FileSystem.children p).map Prod.fst).filter w.matchesName
    return dots.map p.child ++ names.map (inside p)
  | .deep last? => do
    if !(← FileSystem.isDirectory p) then return []
    let found := (← FileSystem.walk p).places.filter fun f => !f.1.isEmpty
    let hits := found.filter fun f =>
      match last? with
      | none => f.2 = .directory
      | some v => (f.1.getLast?.map v.matchesName).getD false
    return hits.map fun f => beneath p f.1

/-- The paths that a way leads to from a path. -/
def expand : List Leg → Path → m (List Path)
  | [], p => return [p]
  | l :: ls, p => do return (← (← l.next p).mapM (expand ls)).flatten

/-- The directories whose paths a wildcard matches. -/
def directories (p : Path) : m (List Path) := do
  let t := p.text.toList
  let (start, rest) : Path × List Char := if p.isAbsolute then (⟨"/"⟩, t.drop 1) else (⟨"."⟩, t)
  match parse t, ofParts rest with
  | .ok _, .ok ws => (← expand (legs ws) start).filterM FileSystem.isDirectory
  | _, _ => return []

end Wildcard

/-! ## Ignored files -/

/-- Which files are left out. -/
structure Ignored where
  paths : List Path
  wildcards : List Wildcard
  deriving DecidableEq, Repr, Inhabited

namespace Ignored

/-- What the entries of a configuration mean below a root. -/
def ofEntries (root : Path) (entries : List String) : Ignored :=
  let (ws, ps) := entries.partition fun e => Wildcard.hasPlaceholder e.toList
  ⟨ps.map fun e => root.join ⟨e⟩, ws.filterMap fun e => (Wildcard.parse e.toList).toOption⟩

/-- Whether a file is left out. -/
def covers (i : Ignored) (root file : Path) : Bool :=
  i.paths.any (fun p => file.isBelow p) ||
  i.wildcards.any (fun w => w.matches? (root.relativeTo file).toList)

end Ignored

/-! ## Source files -/

/-- The source files of a project. -/
structure SourceFiles where
  files : Path.Set := .empty
  /-- The number of places that could not be looked at. -/
  skipped : Nat := 0

namespace SourceFiles

/-- Whether a file is a source file by its name. -/
def isSource (p : Path) : Bool := p.extension? == some "java"

/-- Adds the source files of a walk that started at a path. -/
def addWalk (keep : Path → Bool) (start : Path) (s : SourceFiles) (w : Walk) : SourceFiles :=
  let found := w.places.filterMap fun f =>
    let p := start.descend f.1
    if f.2 = .file && isSource p && keep p then some p else none
  ⟨found.foldl (fun fs p => fs.insert p) s.files, s.skipped + w.skipped⟩

variable {m : Type → Type} [Monad m] [FileSystem m]

/-- The places that an entry of a configuration names below a root, or the
    path of one that has to exist and does not. -/
def startsOf (root : Path) (entry : String) : m (Except Path (List Path)) := do
  let p := root.join ⟨entry⟩
  if Wildcard.hasPlaceholder entry.toList then return .ok (← Wildcard.directories p)
  return if ← FileSystem.isThere p then .ok [p] else .error p

/-- The places that the entries of a configuration name below a root, or the
    path of the first one that does not exist. -/
def starts (root : Path) : List String → m (Except Path (List Path))
  | [] => return .ok []
  | e :: es => do
    match ← startsOf root e with
    | .error p => return .error p
    | .ok ps => return (← starts root es).map (ps ++ ·)

/-- The places to look for source files at: the ones that are included, or the
    root if none is. -/
def places (root : Path) (includes : List String) : m (Except Path (List Path)) :=
  if includes.isEmpty then return .ok [root] else starts root includes

/-- The source files at and below some places. -/
def gather (keep : Path → Bool) (ps : List Path) : m SourceFiles := do
  let walks ← ps.mapM fun p => do return (p, ← FileSystem.walk p)
  return walks.foldl (fun s w => addWalk keep w.1 s w.2) {}

/-- The source files below a root, or the path of an included place that does
    not exist. -/
def discover (root : Path) (includes ignores : List String) : m (Except Path SourceFiles) := do
  let ignored := Ignored.ofEntries root ignores
  match ← places root includes with
  | .error p => return .error p
  | .ok ps => return .ok (← gather (fun p => !ignored.covers root p) ps)

end SourceFiles

end MessageHarvest
