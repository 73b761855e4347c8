/-!
Paths, kept as the text they were written as and compared by component: doubled and trailing
separators and inner `.` components do not count.
-/
namespace InlineIcons

structure Path where
  text : String
  deriving DecidableEq, Repr, Inhabited

namespace Path

/-- The parts that comparison looks at, in the order in which they sort. -/
inductive Component where
  | root
  | here
  | up
  | name (chars : List Char)
  deriving DecidableEq, Repr

def pieces (cs : List Char) : List (List Char) := cs.splitOn '/'

def Component.ofPiece? : List Char → Option Component
  | [] => none
  | ['.'] => none
  | ['.', '.'] => some .up
  | piece => some (.name piece)

/-- A leading `.` counts, any other does not; a leading separator is the root. -/
def components (p : Path) : List Component :=
  match pieces p.text.toList with
  | [] => []
  | first :: rest =>
    let inner := rest.filterMap Component.ofPiece?
    if first = [] && !rest.isEmpty then .root :: inner
    else if first = ['.'] then .here :: inner
    else (first :: rest).filterMap Component.ofPiece?

def Component.rank : Component → Nat
  | root => 0
  | here => 1
  | up => 2
  | name _ => 3

/-- Names sort by their bytes, which is the order of their characters. -/
def compareChars : List Char → List Char → Ordering
  | [], [] => .eq
  | [], _ :: _ => .lt
  | _ :: _, [] => .gt
  | a :: as, b :: bs => (compare a.toNat b.toNat).then (compareChars as bs)

def Component.cmp : Component → Component → Ordering
  | .name a, .name b => compareChars a b
  | a, b => compare a.rank b.rank

def compareComponents : List Component → List Component → Ordering
  | [], [] => .eq
  | [], _ :: _ => .lt
  | _ :: _, [] => .gt
  | a :: as, b :: bs => (a.cmp b).then (compareComponents as bs)

def cmp (p q : Path) : Ordering := compareComponents p.components q.components

def same (p q : Path) : Bool := p.components == q.components

def fileName? (p : Path) : Option (List Char) :=
  match p.components.getLast? with
  | some (.name cs) => some cs
  | _ => none

/-- A name cut at its last dot, unless that dot begins the name. -/
def cutExtension (name : List Char) : List Char × Option (List Char) :=
  let extension := (name.reverse.takeWhile (· != '.')).reverse
  match (name.reverse.dropWhile (· != '.')).reverse with
  | [] | ['.'] => (name, none)
  | stemDot => (stemDot.dropLast, some extension)

def fileStem? (p : Path) : Option String :=
  p.fileName?.map fun name => String.ofList (cutExtension name).1

def extension? (p : Path) : Option String :=
  p.fileName?.bind fun name => (cutExtension name).2.map String.ofList

def sameAsciiCase (a b : String) : Bool := a.toList.map Char.toLower == b.toList.map Char.toLower

def hasExtension (p : Path) (ext : String) : Bool :=
  match p.extension? with
  | some e => sameAsciiCase e ext
  | none => false

def isAbsolute (p : Path) : Bool := p.text.toList.head? == some '/'

/-- The path of a name inside a directory; an absolute name stands for itself. -/
def join (dir name : Path) : Path :=
  if name.isAbsolute || dir.text.isEmpty then name
  else if dir.text.toList.getLast? == some '/' then ⟨dir.text ++ name.text⟩
  else ⟨dir.text ++ "/" ++ name.text⟩

/-- A path written backwards without the separators and single dots that end it; a separator or a dot
that is all of it stays. -/
def dropEnding : List Char → List Char
  | '/' :: c :: rest => dropEnding (c :: rest)
  | '.' :: '/' :: rest => dropEnding ('/' :: rest)
  | cs => cs

/-- The path of the folder above, if the path is not empty and not the root. -/
def parent? (p : Path) : Option Path :=
  match dropEnding p.text.toList.reverse with
  | [] | ['/'] => none
  | cs => some ⟨String.ofList (dropEnding (cs.dropWhile (· != '/'))).reverse⟩

def ancestorsWithin : Nat → Path → List Path
  | 0, _ => []
  | bound + 1, p => p :: match p.parent? with
    | some q => ancestorsWithin bound q
    | none => []

/-- The path and all folders above it, the nearest first; each is shorter than the one before. -/
def ancestors (p : Path) : List Path := ancestorsWithin (p.text.toList.length + 1) p

instance : ToString Path := ⟨Path.text⟩

end Path
end InlineIcons
