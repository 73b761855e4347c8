import InlineIcons.Path
import InlineIcons.Text.Utf8

/-!
The files and folders below a working directory, and nothing outside it. A path leads to a place by
its pieces, one folder after the other; reading and writing fail where the way ends too early. Each
update concerns one place and leaves every other as it was.
-/
namespace InlineIcons

/-- The names from the working directory down to a file or folder. -/
abbrev Place := List (List Char)

inductive FileNode where
  | file (bytes : List UInt8)
  | folder
  deriving DecidableEq, Repr

structure FileTree where
  nodes : List (Place × FileNode)
  distinct : (nodes.map Prod.fst).Nodup

inductive FileFault where
  | missing
  | occupied
  | notFolder
  | isFolder
  | notText
  deriving DecidableEq, Repr

def FileFault.message : FileFault → String
  | missing => "No such file or directory (os error 2)"
  | occupied => "File exists (os error 17)"
  | notFolder => "Not a directory (os error 20)"
  | isFolder => "Is a directory (os error 21)"
  | notText => "stream did not contain valid UTF-8"

namespace FileTree

def empty : FileTree := ⟨[], by simp⟩

instance : Inhabited FileTree := ⟨empty⟩

/-- What is at a place; the working directory is always a folder. -/
def node? (t : FileTree) (place : Place) : Option FileNode :=
  if place = [] then some .folder else t.nodes.lookup place

def others (t : FileTree) (place : Place) : List (Place × FileNode) :=
  t.nodes.filter fun e => e.1 != place

theorem others_distinct (t : FileTree) (place : Place) :
    ((t.others place).map Prod.fst).Nodup :=
  t.distinct.sublist (List.Sublist.map _ List.filter_sublist)

theorem not_mem_others (t : FileTree) (place : Place) :
    place ∉ (t.others place).map Prod.fst := by
  simp [others]

def put (t : FileTree) (place : Place) (node : FileNode) : FileTree :=
  ⟨(place, node) :: t.others place, by
    simpa using ⟨by simpa using t.not_mem_others place, t.others_distinct place⟩⟩

def erase (t : FileTree) (place : Place) : FileTree := ⟨t.others place, t.others_distinct place⟩

theorem lookup_others_self (l : List (Place × FileNode)) (place : Place) :
    (l.filter fun e => e.1 != place).lookup place = none := by
  induction l with
  | nil => rfl
  | cons e l ih =>
    obtain ⟨key, node⟩ := e
    by_cases h : key = place
    · simp [h, ih]
    · have : (place == key) = false := by simpa using Ne.symm h
      simp [h, List.lookup_cons, this, ih]

theorem lookup_others_of_ne (l : List (Place × FileNode)) {place other : Place}
    (h : other ≠ place) :
    (l.filter fun e => e.1 != place).lookup other = l.lookup other := by
  induction l with
  | nil => rfl
  | cons e l ih =>
    obtain ⟨key, node⟩ := e
    by_cases he : key = place
    · have : (other == key) = false := by simpa [he] using h
      simp [he, List.lookup_cons, ih, he ▸ this]
    · simp [he, List.lookup_cons, ih]

theorem node?_put_self (t : FileTree) {place : Place} (node : FileNode) (h : place ≠ []) :
    (t.put place node).node? place = some node := by
  simp [node?, put, h]

theorem node?_put_of_ne (t : FileTree) {place other : Place} (node : FileNode)
    (h : other ≠ place) : (t.put place node).node? other = t.node? other := by
  have : (other == place) = false := by simpa using h
  simp [node?, put, others, List.lookup_cons, this, lookup_others_of_ne _ h]

theorem node?_erase_self (t : FileTree) {place : Place} (h : place ≠ []) :
    (t.erase place).node? place = none := by
  simp [node?, erase, others, h, lookup_others_self]

theorem node?_erase_of_ne (t : FileTree) {place other : Place} (h : other ≠ place) :
    (t.erase place).node? other = t.node? other := by
  simp only [node?, erase, others]
  split
  · rfl
  · exact lookup_others_of_ne _ h

/-- Follows pieces of a path from a place. Each one needs a folder to stand in; the last one may lead
to a place where nothing is. -/
def follow (t : FileTree) (place : Place) : List (List Char) → Except FileFault Place
  | [] => .ok place
  | piece :: rest =>
    match t.node? place with
    | none => .error .missing
    | some (.file _) => .error .notFolder
    | some .folder =>
      if piece = [] || piece = ['.'] then t.follow place rest
      else if piece = ['.', '.'] then
        if place = [] then .error .missing else t.follow place.dropLast rest
      else t.follow (place ++ [piece]) rest

/-- The place that a path leads to. The tree has nothing above the working directory: an absolute path
and one that climbs out by `..` are always missing, also where they come back into it. -/
def reach (t : FileTree) (p : Path) : Except FileFault Place :=
  if p.text.isEmpty || p.isAbsolute then .error .missing
  else t.follow [] (Path.pieces p.text.toList)

def find (t : FileTree) (p : Path) : Except FileFault (Place × FileNode) := do
  let place ← t.reach p
  match t.node? place with
  | some node => return (place, node)
  | none => throw .missing

def has (t : FileTree) (p : Path) : Bool := (t.find p).isOk

def isFolder (t : FileTree) (p : Path) : Bool :=
  match t.find p with
  | .ok (_, .folder) => true
  | _ => false

def read (t : FileTree) (p : Path) : Except FileFault (List UInt8) := do
  match ← t.find p with
  | (_, .file bytes) => return bytes
  | (_, .folder) => throw .isFolder

def readText (t : FileTree) (p : Path) : Except FileFault String := do
  match Text.ofUtf8? (← t.read p) with
  | some text => return text
  | none => throw .notText

/-- The last name of a path, the folder it stands in, and whether a separator follows it. -/
structure Target where
  folder : Place
  name : List Char
  closed : Bool

/-- Where a path would put something. An absolute path and one that climbs above the working directory
lead nowhere, as in `reach`. -/
def target (t : FileTree) (p : Path) : Except FileFault Target := do
  if p.text.isEmpty || p.isAbsolute then throw .missing
  let backwards := (Path.pieces p.text.toList).reverse
  match backwards.dropWhile (· = []) with
  | [] => throw .missing
  | name :: above =>
    let folder ← t.follow [] above.reverse
    match t.node? folder with
    | some .folder => return ⟨folder, name, backwards.head? = some []⟩
    | some (.file _) => throw .notFolder
    | none => throw .missing

def Target.place (g : Target) : Place := g.folder ++ [g.name]

def Target.isDots (g : Target) : Bool := g.name = ['.'] || g.name = ['.', '.']

/-- Writes a file into a folder that is there, over the file that may be there. -/
def write (t : FileTree) (p : Path) (bytes : List UInt8) : Except FileFault FileTree := do
  let g ← t.target p
  if g.closed || g.isDots then throw .isFolder
  match t.node? g.place with
  | some .folder => throw .isFolder
  | _ => return t.put g.place (.file bytes)

def makeFolder (t : FileTree) (p : Path) : Except FileFault FileTree := do
  let g ← t.target p
  if g.isDots || (t.node? g.place).isSome then throw .occupied
  return t.put g.place .folder

/-- Makes the first of some folders, each of which stands in the next; those that are missing are
made first. A fault ends the work but does not undo it. -/
def makeAlong (t : FileTree) : List Path → FileTree × Except FileFault Unit
  | [] => (t, .ok ())
  | p :: above =>
    let settle (t : FileTree) (f : FileFault) : FileTree × Except FileFault Unit :=
      (t, if t.isFolder p then .ok () else .error f)
    if p.text.isEmpty then (t, .ok ())
    else match t.makeFolder p with
      | .ok t => (t, .ok ())
      | .error .missing =>
        match t.makeAlong above with
        | (t, .error f) => (t, .error f)
        | (t, .ok ()) =>
          match t.makeFolder p with
          | .ok t => (t, .ok ())
          | .error f => settle t f
      | .error f => settle t f

def makeFolders (t : FileTree) (p : Path) : FileTree × Except FileFault Unit :=
  t.makeAlong p.ancestors

def filesIn (t : FileTree) (folder : Place) : List (List Char) :=
  t.nodes.filterMap fun
    | (place, .file _) =>
      if place.dropLast = folder then place.getLast? else none
    | (_, .folder) => none

def files (t : FileTree) : List (Place × List UInt8) :=
  t.nodes.filterMap fun
    | (place, .file bytes) => some (place, bytes)
    | (_, .folder) => none

end FileTree

def Place.text (place : Place) : String := String.ofList (['/'].intercalate place)

end InlineIcons
