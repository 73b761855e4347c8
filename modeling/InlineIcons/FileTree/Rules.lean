import InlineIcons.FileTree.Basic
import InlineIcons.Pattern.Ignore

/-!
Which files of a tree count. A folder may hold rule files: those named `.ignore` always hold, those
of version control only in and below a folder under version control. For each kind the nearest folder
with a rule that speaks of a path decides.
-/
namespace InlineIcons

/-- A line of a rule file that is no rule. -/
structure RuleFault where
  file : Place
  line : Nat
  text : String
  fault : IgnoreFault
  deriving Repr

def RuleFault.message (f : RuleFault) : String :=
  f.file.text ++ ": line " ++ toString f.line ++ ": error parsing glob '" ++ f.text ++ "': " ++
    f.fault.message

structure RuleFile where
  rules : List IgnoreRule
  faults : List RuleFault

namespace RuleFile

def none : RuleFile := ⟨[], []⟩

/-- Adds the lines from the given number on; the first one that is no text ends the file. -/
def ofLines (file : Place) (number : Nat) : List (List UInt8) → RuleFile
  | [] => none
  | line :: rest =>
    let line := if line.getLast? = some 0x0D then line.dropLast else line
    match Text.decode? line with
    | Option.none => none
    | some cs =>
      let cs := if number = 1 then cs.dropWhile (· = '\uFEFF') else cs
      let others := ofLines file (number + 1) rest
      match IgnoreRule.ofLine? cs with
      | .ok rule => { others with rules := rule.toList ++ others.rules }
      | .error fault =>
        let text := String.ofList (IgnoreRule.trimEnd cs)
        { others with faults := ⟨file, number, text, fault⟩ :: others.faults }

def ofPlace (t : FileTree) (file : Place) : RuleFile :=
  match t.node? file with
  | some (.file bytes) => ofLines file 1 (bytes.splitOn 0x0A)
  | _ => none

end RuleFile

namespace FileTree

def firstLine? (t : FileTree) (p : Path) : Option String := do
  let text ← (t.readText p).toOption
  (text.splitOn "\n").head?

/-- The folder of version control that a file names instead of being it. -/
def controlFolder? (t : FileTree) (link : Path) : Option Path := do
  let line ← t.firstLine? link
  let mark := "gitdir: ".toList
  if !mark.isPrefixOf line.toList then none
  let folder : Path := ⟨String.ofList (line.toList.drop mark.length)⟩
  let shared ← t.firstLine? (folder.join ⟨"commondir"⟩)
  return if shared.toList.head? = some '.' then folder.join ⟨shared⟩ else ⟨shared⟩

end FileTree

structure FolderRules where
  folder : Place
  own : RuleFile
  versioned : RuleFile
  excluded : RuleFile
  /-- Whether version control begins here. -/
  controlled : Bool

namespace FolderRules

def control : List Char := ".git".toList

def exclusions (t : FileTree) (folder : Place) : RuleFile :=
  let place := folder ++ [control]
  let inside := ["info".toList, "exclude".toList]
  match t.node? place with
  | some (.file _) =>
    match (t.controlFolder? ⟨place.text⟩).bind fun p => (t.reach p).toOption with
    | some shared => RuleFile.ofPlace t (shared ++ inside)
    | none => RuleFile.none
  | _ => RuleFile.ofPlace t (place ++ inside)

def ofFolder (t : FileTree) (git : Bool) (folder : Place) : FolderRules where
  folder
  own := RuleFile.ofPlace t (folder ++ [".ignore".toList])
  versioned := if git then RuleFile.ofPlace t (folder ++ [".gitignore".toList]) else .none
  excluded := if git then exclusions t folder else .none
  controlled := git && (t.node? (folder ++ [control])).isSome

def faults (r : FolderRules) : List RuleFault :=
  r.own.faults ++ r.versioned.faults ++ r.excluded.faults

def foldersAbove (place : Place) : List Place :=
  (List.range place.length).reverse.map place.take

/-- What rules of one kind say of an entry: the nearest folder that speaks of it decides. -/
def verdict (rules : FolderRules → RuleFile) (above : List FolderRules) (entry : Place)
    (folder : Bool) : IgnoreVerdict :=
  above.foldl (fun found r =>
    let path := Text.utf8 (Place.text (entry.drop r.folder.length))
    found.orElse (IgnoreRule.verdict (rules r).rules path folder)) .silent

/-- The folders under the version control that is nearest, if there is one. -/
def underControl : List FolderRules → List FolderRules
  | [] => []
  | r :: above =>
    if r.controlled then [r]
    else if above.any controlled then r :: underControl above
    else []

/-- Whether an entry is ignored by the rules of the folders above it. -/
def ignores (above : List FolderRules) (entry : Place) (folder : Bool) : Bool :=
  let git := underControl above
  (verdict own above entry folder).orElse
    ((verdict versioned git entry folder).orElse (verdict excluded git entry folder)) = .ignored

end FolderRules

namespace FileTree

/-- Whether a file below a root counts: neither it nor a folder between is ignored. -/
def counts (t : FileTree) (git : Bool) (root below : Place) : Bool :=
  (List.range below.length).all fun n =>
    let entry := root ++ below.take (n + 1)
    let above := (FolderRules.foldersAbove entry).map (FolderRules.ofFolder t git)
    !FolderRules.ignores above entry (n + 1 < below.length)

/-- The faults of rules above a folder, from the top down. -/
def ruleFaultsAbove (t : FileTree) (git : Bool) (root : Place) : List RuleFault :=
  (FolderRules.foldersAbove root).reverse.flatMap fun folder =>
    (FolderRules.ofFolder t git folder).faults

/-- The files that count below a root, as the names from the root on; a root that is a file is
itself one without names. -/
def filesBelow (t : FileTree) (git : Bool) (root : Place) : List Place :=
  match t.node? root with
  | some (.file _) => [[]]
  | _ => (t.files.map Prod.fst).filterMap fun place =>
    if root.isPrefixOf place then
      let below := place.drop root.length
      if t.counts git root below then some below else none
    else none

end FileTree
end InlineIcons
