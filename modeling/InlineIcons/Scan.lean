import InlineIcons.FileTree.Rules
import InlineIcons.Pattern.Filter
import InlineIcons.TextFile

/-!
Looking for text files below a root: those of one extension that no rule file ignores and that a
filter, if there is one, lets through. They come in the order of their paths below the root.
-/
namespace InlineIcons

inductive ScanError where
  | noRoot (root : Path)
  | noFiles (root : Path) (extension : String)
  | badFilter (pattern : String) (fault : FilterFault)
  | unreadable (path : Path) (fault : FileFault)
  /-- Rule files above the root hold lines that are no rules. -/
  | badRules (faults : List RuleFault)
  deriving Repr

def ScanError.message : ScanError → String
  | noRoot root => "Directory not found: " ++ root.text
  | noFiles root extension => "No ." ++ extension ++ " files found in: " ++ root.text
  | badFilter pattern fault => "Invalid filter pattern '" ++ pattern ++ "': " ++ fault.message
  | unreadable path fault => "IO error scanning " ++ path.text ++ ": " ++ fault.message
  | badRules faults => "Walk error: " ++ "\n".intercalate (faults.map RuleFault.message)

structure Scan where
  root : Path
  extension : String
  /-- Whether the rules of version control hold. -/
  git : Bool
  filter : Option FilterPattern

namespace Scan

def sources (root : Path) : Scan := ⟨root, "rs", true, none⟩

def withExtension (root : Path) (extension : String) : Scan := ⟨root, extension, true, none⟩

def filtered (s : Scan) (pattern : String) : Except ScanError Scan :=
  match FilterPattern.ofText? pattern with
  | .ok filter => .ok { s with filter := some filter }
  | .error fault => .error (.badFilter pattern fault)

def pathOf (s : Scan) (below : Place) : Path :=
  if below = [] then s.root else s.root.join ⟨below.text⟩

def accepts (s : Scan) (below : Place) : Bool :=
  (s.pathOf below).hasExtension s.extension &&
    match s.filter with
    | some filter => filter.covers below.text.toList
    | none => true

def precedes (a b : Place) : Bool := (Path.cmp ⟨a.text⟩ ⟨b.text⟩).isLE

def readBelow (s : Scan) (t : FileTree) (root below : Place) : Except ScanError TextFile :=
  match t.node? (root ++ below) with
  | some (.file bytes) =>
    match Text.ofUtf8? bytes with
    | some text => .ok ⟨s.pathOf below, ⟨below.text⟩, text⟩
    | none => .error (.unreadable (s.pathOf below) .notText)
  | _ => .error (.unreadable (s.pathOf below) .missing)

/-- All files of a scan, be it none. -/
def filesOrNone (s : Scan) (t : FileTree) : Except ScanError (List TextFile) :=
  match t.find s.root with
  | .error _ => .error (.noRoot s.root)
  | .ok (root, node) =>
    match node, t.ruleFaultsAbove s.git root with
    | .folder, fault :: faults => .error (.badRules (fault :: faults))
    | _, _ =>
      let chosen := (t.filesBelow s.git root).filter s.accepts
      (chosen.mergeSort precedes).mapM (s.readBelow t root)

/-- All files of a scan, of which there has to be one. -/
def files (s : Scan) (t : FileTree) : Except ScanError (List TextFile) := do
  match ← s.filesOrNone t with
  | [] => throw (.noFiles s.root s.extension)
  | files => return files

end Scan
end InlineIcons
