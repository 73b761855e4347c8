import InlineIcons.Text.Utf8
import InlineIcons.Text.Blank

/-!
Patterns of ignore rules. A wildcard stays within one component and works on bytes; `**` as a whole
component stands for any number of folders; braces hold alternatives; a backslash takes the meaning
from the character after it.
-/
namespace InlineIcons

inductive IgnorePiece where
  | char (c : Char)
  /-- One byte. -/
  | any
  /-- Bytes of one component. -/
  | name
  /-- Folders at the front of a path. -/
  | foldersFirst
  /-- Everything below a folder. -/
  | foldersLast
  /-- A separator with folders around it. -/
  | foldersWithin
  | set (negated : Bool) (ranges : List (Char × Char))
  | oneOf (branches : List (List IgnorePiece))
  deriving Repr, Inhabited

inductive IgnoreFault where
  | range (first last : Char)
  | unopened
  | unclosed
  | escape
  deriving DecidableEq, Repr

def IgnoreFault.message : IgnoreFault → String
  | range first last => "invalid range; '" ++ first.toString ++ "' > '" ++ last.toString ++ "'"
  | unopened =>
    "unopened alternate group; missing '\x7b' (maybe escape '\x7d' with '[\x7d]'?)"
  | unclosed =>
    "unclosed alternate group; missing '\x7d' (maybe escape '\x7b' with '[\x7b]'?)"
  | escape => "dangling '\\'"

namespace IgnorePiece

/-- Whether the next character of a class begins it, ends a range, or neither. -/
inductive SetState where
  | first
  | ranging
  | plain
  deriving DecidableEq

/-- Reads a class up to its closing bracket; the ranges come last one first. `none` is a class
without an end. -/
def setRanges : SetState → List (Char × Char) → List Char →
    Except IgnoreFault (Option (List (Char × Char) × List Char))
  | _, _, [] => .ok none
  | state, ranges, c :: rest =>
    if state = .ranging && c ≠ ']' then
      match ranges with
      | (low, _) :: others =>
        if c < low then .error (.range low c) else setRanges .plain ((low, c) :: others) rest
      | [] => setRanges .plain [(c, c)] rest
    else if c = ']' && state ≠ .first then
      .ok (some ((if state = .ranging then ('-', '-') :: ranges else ranges).reverse, rest))
    else if c = '-' && state ≠ .first then setRanges .ranging ranges rest
    else setRanges .plain ((c, c) :: ranges) rest

def set? (cs : List Char) : Except IgnoreFault (Option (IgnorePiece × List Char)) := do
  let (negated, body) := match cs with
    | '!' :: rest | '^' :: rest => (true, rest)
    | rest => (false, rest)
  return (← setRanges .first [] body).map fun (ranges, rest) => (.set negated ranges, rest)

/-- A pattern that is being read: the branches of the groups that are open, the last one first and
each backwards, how many branches stood below each of the groups, the character before the next one,
and whether a bracket was found that is not closed. -/
structure Draft where
  branches : List (List IgnorePiece)
  opened : List Nat
  previous : Option Char
  loose : Bool

namespace Draft

def start : Draft := ⟨[[]], [], none, false⟩

def push (d : Draft) (piece : IgnorePiece) : Draft :=
  match d.branches with
  | branch :: others => { d with branches := (piece :: branch) :: others }
  | [] => { d with branches := [[piece]] }

def replace (d : Draft) (f : IgnorePiece → IgnorePiece) : Draft :=
  match d.branches with
  | (piece :: branch) :: others => { d with branches := (f piece :: branch) :: others }
  | _ => d

def branch (d : Draft) : List IgnorePiece := d.branches.headD []

def openGroup (d : Draft) : Draft :=
  { d with branches := [] :: d.branches, opened := d.branches.length :: d.opened }

def closeGroup (d : Draft) : Except IgnoreFault Draft :=
  match d.opened with
  | [] => .error .unopened
  | below :: opened =>
    let count := d.branches.length - below
    let group := oneOf ((d.branches.take count).reverse.map List.reverse)
    .ok ({ d with branches := d.branches.drop count, opened }.push group)

def comma (d : Draft) : Draft :=
  if d.opened.isEmpty then d.push (.char ',') else { d with branches := [] :: d.branches }

def twoNames (d : Draft) : Draft := (d.push .name).push .name

/-- Two stars with the characters after them. They mean folders only where they make up a component;
what separates them from their neighbours then belongs to them. -/
def twoStars (d : Draft) (rest : List Char) : Draft × List Char :=
  if d.branch.isEmpty then
    match rest with
    | [] => (d.push .foldersFirst, [])
    | '/' :: rest => ({ d with previous := some '/' }.push .foldersFirst, rest)
    | _ => (d.twoNames, rest)
  else if d.previous ≠ some '/' &&
      (d.branches.length ≤ 1 || (d.previous ≠ some ',' && d.previous ≠ some '\x7b')) then
    (d.twoNames, rest)
  else
    let settle (piece : IgnorePiece) : IgnorePiece → IgnorePiece
      | .foldersFirst => .foldersFirst
      | .foldersLast => .foldersLast
      | _ => piece
    match rest with
    | [] => (d.replace (settle .foldersLast), [])
    | '/' :: rest => ({ d with previous := some '/' }.replace (settle .foldersWithin), rest)
    | c :: _ =>
      if (c = ',' || c = '\x7d') && d.branches.length ≥ 2 then
        (d.replace (settle .foldersLast), rest)
      else (d.twoNames, rest)

def step (d : Draft) (c : Char) (rest : List Char) : Except IgnoreFault (Draft × List Char) :=
  let after (d : Draft) : Draft := { d with previous := some c }
  match c with
  | '?' => .ok (after (d.push .any), rest)
  | '*' =>
    match rest with
    | '*' :: rest =>
      let (e, left) := d.twoStars rest
      .ok (if left.length = rest.length then { e with previous := some '*' } else e, left)
    | _ => .ok (after (d.push .name), rest)
  | '[' =>
    if d.loose then .ok (after (d.push (.char '[')), rest)
    else do
      match ← set? rest with
      | some (piece, rest) => return ({ d with previous := some ']' }.push piece, rest)
      | none => return (after ({ d with loose := true }.push (.char '[')), rest)
  | '\x7b' => .ok (after d.openGroup, rest)
  | '\x7d' => do return (after (← d.closeGroup), rest)
  | ',' => .ok (after d.comma, rest)
  | '\\' =>
    match rest with
    | [] => .error .escape
    | c :: rest => .ok ({ d with previous := some c }.push (.char c), rest)
  | c => .ok (after (d.push (.char c)), rest)

/-- Each step takes a character, so the characters bound the steps. -/
def readWithin : Nat → Draft → List Char → Except IgnoreFault Draft
  | 0, d, _ | _, d, [] => .ok d
  | bound + 1, d, c :: rest => do
    let (d, rest) ← d.step c rest
    readWithin bound d rest

end Draft

def ofChars? (cs : List Char) : Except IgnoreFault (List IgnorePiece) := do
  let d ← Draft.start.readWithin cs.length cs
  match d.branches with
  | [branch] => return branch.reverse
  | _ => throw .unclosed

/-- The bytes that a class lists and the ranges between them: a range goes from the last byte of its
first character to the first byte of its last one. -/
def byteRanges (range : Char × Char) : List (UInt8 × UInt8) :=
  let low := String.utf8EncodeChar range.1
  if range.1 = range.2 then low.map fun b => (b, b)
  else
    let high := String.utf8EncodeChar range.2
    low.dropLast.map (fun b => (b, b)) ++ [(low.getLastD 0, high.headD 0)] ++
      high.tail.map fun b => (b, b)

def setHolds (negated : Bool) (ranges : List (Char × Char)) (b : UInt8) : Bool :=
  (ranges.flatMap byteRanges).any (fun (low, high) => low ≤ b && b ≤ high) != negated

def separator : UInt8 := 0x2F

/-- What may be left after bytes of one component. -/
def afterName : List UInt8 → List (List UInt8)
  | [] => [[]]
  | b :: bs => (b :: bs) :: if b = separator then [] else afterName bs

def afterSeparators : List UInt8 → List (List UInt8)
  | [] => []
  | b :: bs => if b = separator then bs :: afterSeparators bs else afterSeparators bs

def endings : List UInt8 → List (List UInt8)
  | [] => [[]]
  | b :: bs => (b :: bs) :: endings bs

mutual
/-- Whether a piece stands for the empty text only, being made of empty alternatives. -/
def isVoid : IgnorePiece → Bool
  | oneOf branches => branchesVoid branches
  | _ => false

def allVoid : List IgnorePiece → Bool
  | [] => true
  | p :: ps => isVoid p && allVoid ps

def branchesVoid : List (List IgnorePiece) → Bool
  | [] => true
  | b :: bs => allVoid b && branchesVoid bs
end

mutual
/-- What may be left of some bytes after a piece. -/
def rests : IgnorePiece → List UInt8 → List (List UInt8)
  | char c, bs =>
    let code := String.utf8EncodeChar c
    if code.isPrefixOf bs then [bs.drop code.length] else []
  | any, b :: bs => if b = separator then [] else [bs]
  | name, bs => afterName bs
  | foldersFirst, bs => bs :: afterSeparators bs
  | foldersLast, b :: bs => if b = separator then endings bs else []
  | foldersWithin, b :: bs => if b = separator then bs :: afterSeparators bs else []
  | set negated ranges, b :: bs => if setHolds negated ranges b then [bs] else []
  | oneOf branches, bs => if branchesVoid branches then [bs] else restsAny branches bs
  | _, [] => []

/-- What may be left after pieces in a row. -/
def restsAll : List IgnorePiece → List UInt8 → List (List UInt8)
  | [], bs => [bs]
  | p :: ps, bs => (rests p bs).flatMap (restsAll ps)

/-- What may be left after one of the branches; an empty branch counts for nothing. -/
def restsAny : List (List IgnorePiece) → List UInt8 → List (List UInt8)
  | [], _ => []
  | b :: bs, bytes => (if allVoid b then [] else restsAll b bytes) ++ restsAny bs bytes
end

def covers : List IgnorePiece → List UInt8 → Bool
  | [foldersFirst], _ => true
  | pieces, bs => (restsAll pieces bs).any List.isEmpty

end IgnorePiece

structure IgnoreRule where
  pieces : List IgnorePiece
  /-- Whether it takes back what rules before it ignore. -/
  keeps : Bool
  foldersOnly : Bool
  deriving Repr

/-- What rules say of a file or folder. -/
inductive IgnoreVerdict where
  | silent
  | ignored
  | kept
  deriving DecidableEq, Repr

def IgnoreVerdict.orElse : IgnoreVerdict → IgnoreVerdict → IgnoreVerdict
  | silent, other => other
  | verdict, _ => verdict

namespace IgnoreRule

def trimEnd (cs : List Char) : List Char := (cs.reverse.dropWhile Text.isBlank).reverse

/-- A rule without a separator holds at every depth. -/
def anchor (absolute : Bool) (cs : List Char) : List Char :=
  let deep := "**/".toList
  if absolute || cs.contains '/' || deep.isPrefixOf cs || cs = ['*', '*'] then cs else deep ++ cs

/-- A rule for all that is below a folder does not concern the folder. -/
def below (cs : List Char) : List Char :=
  if "/**".toList.isSuffixOf cs then cs ++ ['/', '*'] else cs

/-- The marks in front of a rule: whether it takes back and whether it is bound to its folder. -/
def marks (cs : List Char) : Bool × Bool × List Char :=
  match cs with
  | '\\' :: '!' :: _ | '\\' :: '#' :: _ => (false, false, cs.tail)
  | _ =>
    let (keeps, cs) := match cs with
      | '!' :: rest => (true, rest)
      | _ => (false, cs)
    match cs with
    | '/' :: rest => (keeps, true, rest)
    | _ => (keeps, false, cs)

/-- A separator at the end, with the backslash that may stand before it. -/
def folderMark (cs : List Char) : Bool × List Char :=
  match cs.reverse with
  | '/' :: '\\' :: rest => (true, rest.reverse)
  | '/' :: rest => (true, rest.reverse)
  | _ => (false, cs)

/-- The rule of a line; comments and empty lines hold none. -/
def ofLine? (line : List Char) : Except IgnoreFault (Option IgnoreRule) := do
  let line := if ['\\', ' '].isSuffixOf line then line else trimEnd line
  if line.isEmpty || line.head? = some '#' then return none
  let (keeps, absolute, body) := marks line
  let (foldersOnly, body) := folderMark body
  return some ⟨← IgnorePiece.ofChars? (below (anchor absolute body)), keeps, foldersOnly⟩

/-- Whether a rule speaks of a path below its folder. -/
def concerns (r : IgnoreRule) (path : List UInt8) (folder : Bool) : Bool :=
  (!r.foldersOnly || folder) && IgnorePiece.covers r.pieces path

/-- The last rule that speaks of a path decides. -/
def verdict (rules : List IgnoreRule) (path : List UInt8) (folder : Bool) : IgnoreVerdict :=
  match rules.reverse.find? (·.concerns path folder) with
  | some r => if r.keeps then .kept else .ignored
  | none => .silent

end IgnoreRule
end InlineIcons
