import InlineIcons.FileTree.Basic
import InlineIcons.SourceUnit.Basic

/-!
Writing generated units into a folder. A file that already holds its unit is left alone; generated
files of units that are gone are removed, and no others. A dry run tells what would be done.
-/
namespace InlineIcons

inductive WriteError where
  | createFolder (path : Path) (fault : FileFault)
  | writeFile (path : Path) (fault : FileFault)
  | removeFile (path : Path) (fault : FileFault)
  deriving Repr

def WriteError.message : WriteError → String
  | createFolder path fault =>
    "Failed to create directory " ++ path.text ++ ": " ++ fault.message
  | writeFile path fault => "Failed to write file " ++ path.text ++ ": " ++ fault.message
  | removeFile path fault => "Failed to remove file " ++ path.text ++ ": " ++ fault.message

inductive WriteResult where
  | written (path : Path) (bytes : Nat)
  | unchanged (path : Path)
  | removed (path : Path)
  /-- What would be written; a file that would be removed has no content. -/
  | dryRun (path : Path) (content : String)
  deriving DecidableEq, Repr

namespace WriteResult

def path : WriteResult → Path
  | written p _ | unchanged p | removed p | dryRun p _ => p

def status : WriteResult → String
  | written _ _ => "written"
  | unchanged _ => "unchanged"
  | removed _ => "removed"
  | dryRun _ _ => "dry-run"

def bytes : WriteResult → Nat
  | written _ n => n
  | _ => 0

def wasWritten : WriteResult → Bool
  | written _ _ | removed _ => true
  | _ => false

def content? : WriteResult → Option String
  | dryRun _ content => some content
  | _ => none

end WriteResult

namespace FileTree

def holds (t : FileTree) (p : Path) (content : String) : Bool :=
  match t.readText p with
  | .ok text => text == content
  | .error _ => false

/-- Makes the folder that a file is to stand in. -/
def prepare (t : FileTree) (p : Path) : FileTree × Except WriteError Unit :=
  match p.parent? with
  | none => (t, .ok ())
  | some folder =>
    if t.has folder then (t, .ok ())
    else match t.makeFolders folder with
      | (t, .ok ()) => (t, .ok ())
      | (t, .error fault) => (t, .error (.createFolder folder fault))

/-- Writes a file that does not hold its content yet. -/
def writeText (t : FileTree) (dry : Bool) (p : Path) (content : String) :
    FileTree × Except WriteError WriteResult :=
  if t.holds p content then (t, .ok (.unchanged p))
  else if dry then (t, .ok (.dryRun p content))
  else match t.prepare p with
    | (t, .error e) => (t, .error e)
    | (t, .ok ()) =>
      let bytes := Text.utf8 content
      match t.write p bytes with
      | .ok t => (t, .ok (.written p bytes.length))
      | .error fault => (t, .error (.writeFile p fault))

def isGenerated (name : List Char) : Bool := SourceUnit.suffix.toList.isSuffixOf name

def nameUpTo (a b : List Char) : Bool := (Path.compareChars a b).isLE

/-- The names of the generated files directly in a folder that are not to be kept, in order. -/
def staleNames (t : FileTree) (folder : Place) (keep : List String) : List (List Char) :=
  ((t.filesIn folder).filter fun name =>
    isGenerated name && !keep.contains (String.ofList name)).mergeSort nameUpTo

/-- The generated files in a folder that are not to be kept, with their places. -/
def stale (t : FileTree) (dir : Path) (keep : List String) : List (Path × Place) :=
  match t.find dir with
  | .ok (folder, .folder) => (t.staleNames folder keep).map fun name =>
      (dir.join ⟨String.ofList name⟩, folder ++ [name])
  | _ => []

def staleFiles (t : FileTree) (dir : Path) (keep : List String) : List Path :=
  (t.stale dir keep).map Prod.fst

def prune (t : FileTree) (dry : Bool) (dir : Path) (keep : List String) :
    FileTree × List WriteResult :=
  let stale := t.stale dir keep
  if dry then (t, stale.map fun (p, _) => .dryRun p "")
  else (stale.foldl (fun t (_, place) => t.erase place) t, stale.map fun (p, _) => .removed p)

/-- Writes units in order; the first fault ends the work. -/
def writeUnits (t : FileTree) (dry : Bool) (dir : Path) :
    List SourceUnit → FileTree × Except WriteError (List WriteResult)
  | [] => (t, .ok [])
  | u :: units =>
    match t.writeText dry (dir.join ⟨u.hintName⟩) u.source with
    | (t, .error e) => (t, .error e)
    | (t, .ok result) =>
      match t.writeUnits dry dir units with
      | (t, .error e) => (t, .error e)
      | (t, .ok results) => (t, .ok (result :: results))

/-- Writes units into a folder and then removes the generated files that are none of them. -/
def writeOutput (t : FileTree) (dry : Bool) (dir : Path) (units : List SourceUnit) :
    FileTree × Except WriteError (List WriteResult) :=
  match t.writeUnits dry dir units with
  | (t, .error e) => (t, .error e)
  | (t, .ok results) =>
    let (t, pruned) := t.prune dry dir (units.map SourceUnit.hintName)
    (t, .ok (results ++ pruned))

/-- The paths that differ from what the units say: units that no file holds, and then generated files
of no unit. -/
def outOfDate (t : FileTree) (dir : Path) (units : List SourceUnit) : List Path :=
  let changed := units.filter fun u => !t.holds (dir.join ⟨u.hintName⟩) u.source
  changed.map (fun u => dir.join ⟨u.hintName⟩) ++
    t.staleFiles dir (units.map SourceUnit.hintName)

end FileTree
end InlineIcons
