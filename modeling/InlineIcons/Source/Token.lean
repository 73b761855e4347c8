import InlineIcons.Source.Lexeme

/-!
Token trees: the lexemes of a text with each pair of brackets folded into a group. A text has trees
only if all of it can be read and its brackets match.
-/
namespace InlineIcons.Source

inductive TokenTree where
  | word (text : String) (place : Position)
  | mark (char : Char) (joint : Bool) (place : Position)
  | literal (text : String) (place : Position)
  | group (delimiter : Delimiter) (place closing : Position) (body : List TokenTree)
  deriving Repr, Inhabited

namespace TokenTree

def place : TokenTree → Position
  | word _ p | mark _ _ p | literal _ p | group _ p _ _ => p

mutual
/-- The number of tokens of a tree, all those of its groups counted. -/
def weight : TokenTree → Nat
  | group _ _ _ body => weightAll body + 1
  | _ => 1

def weightAll : List TokenTree → Nat
  | [] => 0
  | t :: ts => weight t + weightAll ts
end

/-- A bracket that waits for its partner, with the trees before it in reverse. -/
structure Frame where
  delimiter : Delimiter
  place : Position
  before : List TokenTree

/-- Folds brackets. The first fault wins: a bracket that closes none or another kind, then a place
at which reading stopped, then the innermost bracket that was left open. -/
def nest (fault : Option Position) (frames : List Frame) (done : List TokenTree) :
    List (Position × Lexeme) → Except Position (List TokenTree)
  | [] =>
    match fault, frames with
    | some p, _ => .error p
    | none, frame :: _ => .error frame.place
    | none, [] => .ok done.reverse
  | (p, lexeme) :: rest =>
    match lexeme with
    | .word t => nest fault frames (word t p :: done) rest
    | .mark c joint => nest fault frames (mark c joint p :: done) rest
    | .literal t => nest fault frames (literal t p :: done) rest
    | .opening d => nest fault (⟨d, p, done⟩ :: frames) [] rest
    | .closing d =>
      match frames with
      | [] => .error p
      | frame :: outer =>
        if frame.delimiter = d then
          nest fault outer (group d frame.place p done.reverse :: frame.before) rest
        else .error p

/-- The trees of a text, or the place of the fault. -/
def ofChars (cs : List Char) : Except Position (List TokenTree) :=
  let scanned := Scanned.ofChars cs
  nest scanned.fault [] [] scanned.lexemes

/-- What follows the given marks, which have to stand directly after one another. -/
def afterMarks? : List Char → List TokenTree → Option (List TokenTree)
  | [], ts => some ts
  | [c], mark d _ _ :: ts => if c = d then some ts else none
  | c :: cs, mark d joint _ :: ts => if c = d ∧ joint then afterMarks? cs ts else none
  | _, _ => none

end TokenTree

/-- Words that cannot name anything unless written with `r#`. -/
def keywords : List String :=
  ["_", "abstract", "as", "async", "await", "become", "box", "break", "const", "continue", "crate",
    "do", "dyn", "else", "enum", "extern", "false", "final", "fn", "for", "if", "impl", "in", "let",
    "loop", "macro", "match", "mod", "move", "mut", "override", "priv", "pub", "ref", "return",
    "Self", "self", "static", "struct", "super", "trait", "true", "try", "type", "typeof", "unsafe",
    "unsized", "use", "virtual", "where", "while", "yield"]

def isKeyword (word : String) : Bool := keywords.contains word

end InlineIcons.Source
