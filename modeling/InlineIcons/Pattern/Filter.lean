/-!
Patterns that choose among paths. `?` stands for one character and `*` for any number, a separator
counted like any other; `**` as a whole component stands for any number of folders.
-/
namespace InlineIcons

inductive CharSpan where
  | single (c : Char)
  | range (low high : Char)
  deriving DecidableEq, Repr

def CharSpan.holds (c : Char) : CharSpan → Bool
  | single d => c = d
  | range low high => low ≤ c && c ≤ high

inductive FilterPiece where
  | char (c : Char)
  | any
  /-- Any text. -/
  | text
  /-- Any number of folders, and at the end of a pattern any path. -/
  | folders
  | within (spans : List CharSpan)
  | except (spans : List CharSpan)
  deriving DecidableEq, Repr

/-- What is wrong with a pattern, and after how many of its characters. -/
inductive FilterFault where
  | range (position : Nat)
  | wildcards (position : Nat)
  | component (position : Nat)
  deriving DecidableEq, Repr

namespace FilterFault

def position : FilterFault → Nat
  | range n | wildcards n | component n => n

def reason : FilterFault → String
  | range _ => "invalid range pattern"
  | wildcards _ => "wildcards are either regular `*` or recursive `**`"
  | component _ => "recursive wildcards must form a single path component"

def message (f : FilterFault) : String :=
  s!"Pattern syntax error near position {f.position}: {f.reason}"

end FilterFault

abbrev FilterPattern := List FilterPiece

namespace FilterPattern

/-- The spans between brackets; a hyphen between two characters makes a range of them. -/
def spans : List Char → List CharSpan
  | low :: '-' :: high :: rest => .range low high :: spans rest
  | c :: rest => .single c :: spans rest
  | [] => []

/-- What a class of characters holds, whose first character may be a closing bracket, and what
follows the class. -/
def classBody? : List Char → Option (List Char × List Char)
  | [] => none
  | first :: rest =>
    match rest.dropWhile (· != ']') with
    | [] => none
    | _ :: after => some (first :: rest.takeWhile (· != ']'), after)

def class? : List Char → Option (FilterPiece × List Char)
  | '!' :: rest => (classBody? rest).map fun (body, after) => (.except (spans body), after)
  | rest => (classBody? rest).map fun (body, after) => (.within (spans body), after)

/-- What stars that stand together mean, given whether they begin a component, what follows them and
where they begin; the separator after `**` belongs to it. -/
def stars (count : Nat) (begins : Bool) (start : Nat) (rest : List Char) :
    Except FilterFault (FilterPiece × List Char) :=
  if count = 1 then .ok (.text, rest)
  else if count > 2 then .error (.wildcards (start + 2))
  else if !begins then .error (.component (start - 1))
  else match rest with
    | [] => .ok (.folders, [])
    | '/' :: rest => .ok (.folders, rest)
    | _ => .error (.component (start + 2))

/-- Reads a pattern of `size` characters from what is left of it; `begins` tells whether a component
begins here. Each piece takes a character, so the characters bound the steps. -/
def readWithin (size : Nat) : Nat → Bool → List Char → Except FilterFault FilterPattern
  | 0, _, _ | _, _, [] => .ok []
  | bound + 1, begins, c :: rest => do
    let start := size - (rest.length + 1)
    match c with
    | '?' => return .any :: (← readWithin size bound false rest)
    | '*' =>
      let more := rest.takeWhile (· == '*')
      let (piece, rest) ← stars (more.length + 1) begins start (rest.drop more.length)
      return piece :: (← readWithin size bound (piece = .folders) rest)
    | '[' =>
      match class? rest with
      | some (piece, rest) => return piece :: (← readWithin size bound false rest)
      | none => throw (.range start)
    | c => return .char c :: (← readWithin size bound (c = '/') rest)

def ofText? (text : String) : Except FilterFault FilterPattern :=
  readWithin text.toList.length text.toList.length true text.toList

def endings : List Char → List (List Char)
  | [] => [[]]
  | c :: cs => (c :: cs) :: endings cs

/-- What may be left of a path after some of its folders: the path, what follows each separator, and
nothing. -/
def afterFolders (cs : List Char) : List (List Char) :=
  cs :: go cs
where
  go : List Char → List (List Char)
    | [] => [[]]
    | c :: cs => if c = '/' then cs :: go cs else go cs

def covers : FilterPattern → List Char → Bool
  | [], cs => cs.isEmpty
  | .text :: rest, cs => (endings cs).any (covers rest)
  | .folders :: rest, cs => (afterFolders cs).any (covers rest)
  | _ :: _, [] => false
  | .char d :: rest, c :: cs => c = d && covers rest cs
  | .any :: rest, _ :: cs => covers rest cs
  | .within spans :: rest, c :: cs => spans.any (CharSpan.holds c) && covers rest cs
  | .except spans :: rest, c :: cs => !spans.any (CharSpan.holds c) && covers rest cs

end FilterPattern
end InlineIcons
