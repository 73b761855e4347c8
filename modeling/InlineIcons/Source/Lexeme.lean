import InlineIcons.Literal
import InlineIcons.Source.Number
import InlineIcons.Source.Quoted
import InlineIcons.Text.Blank

/-!
Lexemes of program text: words, single marks, literals and brackets. A lexeme is read off the front
of a character list, together with the number of its characters.
-/
namespace InlineIcons.Source

/-- A place in a text; lines and columns count from one, columns in characters. -/
structure Position where
  line : Nat
  column : Nat
  deriving DecidableEq, Repr, Inhabited

namespace Position

def start : Position := ⟨1, 1⟩

def after (p : Position) (c : Char) : Position :=
  if c = '\n' then ⟨p.line + 1, 1⟩ else ⟨p.line, p.column + 1⟩

def past (p : Position) (cs : List Char) : Position := cs.foldl after p

end Position

inductive Delimiter where
  | parenthesis
  | bracket
  | brace
  deriving DecidableEq, Repr

namespace Delimiter

def opening : Delimiter → Char
  | parenthesis => '('
  | bracket => '['
  | brace => '\x7b'

def closing : Delimiter → Char
  | parenthesis => ')'
  | bracket => ']'
  | brace => '\x7d'

def all : List Delimiter := [parenthesis, bracket, brace]

end Delimiter

inductive Lexeme where
  | word (text : String)
  /-- A mark is joint when another mark follows it directly. -/
  | mark (char : Char) (joint : Bool)
  | literal (text : String)
  | opening (delimiter : Delimiter)
  | closing (delimiter : Delimiter)
  deriving DecidableEq, Repr

namespace Lexeme

/-- Blanks, and the two marks that set the direction of writing. -/
def isSeparator (c : Char) : Bool := Text.isBlank c || c = '\u200e' || c = '\u200f'

def beginsComment (cs : List Char) : Bool := ['/', '/'].isPrefixOf cs || ['/', '*'].isPrefixOf cs

/-- The length of a block comment; such comments nest. -/
def blockLength? (depth count : Nat) : List Char → Option Nat
  | [] => none
  | '/' :: '*' :: cs => blockLength? (depth + 1) (count + 2) cs
  | '*' :: '/' :: cs => if depth ≤ 1 then some (count + 2) else blockLength? (depth - 1) (count + 2) cs
  | _ :: cs => blockLength? depth (count + 1) cs

def hasBareReturn : List Char → Bool
  | [] => false
  | c :: cs => (c = '\r' && cs.head? ≠ some '\n') || hasBareReturn cs

def documentation (inner : Bool) (text : List Char) : List Lexeme :=
  [mark '#' false] ++ (if inner then [mark '!' false] else []) ++
    [opening .bracket, word "doc", mark '=' false, literal (Literal.quote (String.ofList text)),
      closing .bracket]

/-- What a comment of the given length makes: nothing, or the attribute of a documentation comment,
in which a carriage return is refused unless it begins a line break. -/
def ofComment? (inner : Option Bool) (text : List Char) (count : Nat) : Option (List Lexeme × Nat) :=
  match inner with
  | none => some ([], count)
  | some inner => if hasBareReturn text then none else some (documentation inner text, count)

/-- Whether the opening of a comment says that it documents, and what: its surroundings or what
follows. A repeated opening mark says that it does not. -/
def documents? (mark : Char) : List Char → Option Bool
  | c :: rest =>
    if c = '!' then some true
    else if c = mark ∧ rest.head? ≠ some mark then some false
    else none
  | [] => none

def comment? (cs : List Char) : Option (List Lexeme × Nat) :=
  match cs with
  | '/' :: '/' :: rest =>
    let line := rest.takeWhile (· ≠ '\n')
    let text := if line.getLast? = some '\r' ∧ line.length < rest.length then line.dropLast else line
    ofComment? (documents? '/' rest) (text.drop 1) (line.length + 2)
  | '/' :: '*' :: rest => do
    let count ← blockLength? 0 0 cs
    let inner := if rest.head? = some '*' ∧ (rest.drop 1).head? = some '/' then none
      else documents? '*' rest
    ofComment? inner ((cs.take (count - 2)).drop 3) count
  | _ => none

def isMark (c : Char) : Bool := "~!@#$%^&*-=+|;:,<.>/?'".toList.contains c

/-- Whether a mark stands at the front; the slash of a comment is none. -/
def beginsMark : List Char → Bool
  | [] => false
  | c :: cs => isMark c && !beginsComment (c :: cs)

/-- Words that stay reserved however they are written. -/
def fixedWords : List String := ["_", "super", "self", "Self", "crate"]

/-- The word at the front of a text; `r#` before it makes a name of most reserved words. -/
def word? (cs : List Char) : Option (String × Nat) :=
  match cs with
  | 'r' :: '#' :: rest =>
    let count := Text.wordLength rest
    if count = 0 ∨ String.ofList (rest.take count) ∈ fixedWords then none
    else some (String.ofList (cs.take (count + 2)), count + 2)
  | _ =>
    let count := Text.wordLength cs
    if count = 0 then none else some (String.ofList (cs.take count), count)

/-- Openings of literals, at which no word begins. -/
def literalOpenings : List (List Char) :=
  ["r\"", "r#\"", "r##", "b\"", "b'", "br\"", "br#", "c\"", "cr\"", "cr#"].map String.toList

/-- A mark at the front. An apostrophe has to begin a lifetime. -/
def mark? (cs : List Char) : Option Lexeme :=
  match cs with
  | [] => none
  | c :: rest =>
    if !beginsMark cs then none
    else if c = '\'' then
      match word? rest with
      | none => none
      | some (_, count) =>
        let next := (rest.drop count).head?
        if next = some '\'' ∨ (next = some '#' ∧ ¬ ['r', '#'].isPrefixOf rest) then none
        else some (mark '\'' true)
    else some (mark c (beginsMark rest))

def leaf? (cs : List Char) : Option (Lexeme × Nat) :=
  match (Quoted.length? cs).or (Number.length? cs) with
  | some count => some (literal (String.ofList (cs.take count)), count)
  | none => match mark? cs with
    | some m => some (m, 1)
    | none =>
      if literalOpenings.any (·.isPrefixOf cs) then none
      else (word? cs).map fun (text, count) => (word text, count)

/-- What stands at the front of a text: the lexemes that it makes, if any, and its length. -/
def front? : List Char → Option (List Lexeme × Nat)
  | [] => none
  | c :: cs =>
    if isSeparator c then some ([], 1)
    else if beginsComment (c :: cs) then comment? (c :: cs)
    else if let some d := Delimiter.all.find? (·.opening = c) then some ([opening d], 1)
    else if let some d := Delimiter.all.find? (·.closing = c) then some ([closing d], 1)
    else (leaf? (c :: cs)).map fun (lexeme, count) => ([lexeme], count)

/-- A text without the blanks and comments at its front; the bound is its length. -/
def skipSilent : Nat → List Char → List Char
  | 0, cs => cs
  | bound + 1, cs =>
    match front? cs with
    | some ([], count) => skipSilent bound (cs.drop count)
    | _ => cs

end Lexeme

/-- The lexemes of a text with their places, and the place at which reading had to stop, if any. -/
structure Scanned where
  lexemes : List (Position × Lexeme)
  fault : Option Position

/-- Reads lexemes one after another; the bound is the number of characters. -/
def Scanned.from (p : Position) (done : List (Position × Lexeme)) : Nat → List Char → Scanned
  | 0, _ => ⟨done.reverse, none⟩
  | _, [] => ⟨done.reverse, none⟩
  | bound + 1, cs =>
    match Lexeme.front? cs with
    | none => ⟨done.reverse, some p⟩
    | some (lexemes, count) =>
      Scanned.from (p.past (cs.take count)) ((lexemes.map (p, ·)).reverse ++ done) bound
        (cs.drop count)

/-- A mark of byte order at the front is passed over. -/
def Scanned.ofChars (cs : List Char) : Scanned :=
  match cs with
  | '\ufeff' :: rest => Scanned.from (Position.start.after '\ufeff') [] rest.length rest
  | _ => Scanned.from Position.start [] cs.length cs

end InlineIcons.Source
