import InlineIcons.CommandLine.Run

/-!
The program: it reads the files below the working directory, runs on them, and writes back what the
run has changed.
-/
namespace InlineIcons.Program
open CommandLine

/-- Adds what stands at one entry of a folder, and all that is below it. A link is read as the file it
leads to and never walked as a folder, so the walk ends; what cannot be read does not count. -/
partial def readInto (place : Place) (entry : IO.FS.DirEntry) (t : FileTree) : IO FileTree := do
  try
    let about ← entry.path.symlinkMetadata
    if about.type == .dir then
      let found ← entry.path.readDir
      let t := if place = [] then t else t.put place .folder
      found.foldlM (fun t next => readInto (place ++ [next.fileName.toList]) next t) t
    else
      let bytes ← IO.FS.readBinFile entry.path
      return t.put place (.file bytes.toList)
  catch _ => return t

/-- The working directory and all that is below it. -/
def readTree : IO FileTree := readInto [] ⟨".", "."⟩ .empty

/-- Brings the files on disk from one state to another. -/
def apply (before after : FileTree) : IO Unit := do
  for (place, node) in after.nodes.reverse do
    if before.node? place ≠ some node then
      match node with
      | .folder => IO.FS.createDirAll place.text
      | .file bytes => IO.FS.writeBinFile place.text ⟨bytes.toArray⟩
  for (place, _) in before.files do
    if (after.node? place).isNone then IO.FS.removeFile place.text

/-- The first change between two states that a session wants to know of. -/
def change? (s : Session) (before after : FileTree) : Option WatchEvent :=
  let news := after.files.filterMap fun (place, bytes) =>
    if s.concerns ⟨place.text⟩ && before.node? place ≠ some (.file bytes) then
      some (.modified ⟨place.text⟩)
    else none
  let losses := before.files.filterMap fun (place, _) =>
    if s.concerns ⟨place.text⟩ && (after.node? place).isNone then some (.deleted ⟨place.text⟩)
    else none
  (news ++ losses).head?

/-- Looks for changes twice a second. -/
partial def watch (s : Session) (known : FileTree) : IO Unit := do
  IO.sleep 500
  let found ← readTree
  match change? s known found with
  | none => watch s found
  | some event =>
    let (after, out, s) := s.onEvent found event
    apply found after
    IO.print out
    watch s after

end InlineIcons.Program

open InlineIcons in
def main (args : List String) : IO UInt32 := do
  let before ← Program.readTree
  let o := CommandLine.run before args
  Program.apply before o.tree
  IO.print o.out
  (← IO.getStdout).flush
  IO.eprint o.err
  match o.ending with
  | .code n => return n.toUInt32
  | .watching s =>
    Program.watch s o.tree
    return 0
