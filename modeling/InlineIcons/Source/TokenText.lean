import InlineIcons.Source.Token

/-!
The text of tokens: one blank between any two, none inside an operator and after the apostrophe of
a lifetime. Types and values have operators of their own; what is handed to a macro keeps its marks
as they were joined.
-/
namespace InlineIcons.Source.TokenText

/-- By which rules marks are joined. -/
inductive Rules where
  | written
  | types
  | values
  deriving DecidableEq, Repr

/-- What stands before a token, as far as it decides how the token is written. -/
inductive Before where
  | nothing
  | word
  | invocation
  | value
  | path
  deriving DecidableEq, Repr

structure State where
  rules : Rules
  before : Before
  /-- Marks of the operator at hand that are still to be written. -/
  pending : Nat
  /-- Type arguments of a value that are still open. -/
  angles : Nat

def State.start (rules : Rules) : State := ⟨rules, .nothing, 0, 0⟩

def typeOperators : List String := ["...", "->", "::"]

/-- Operators before a value; any other mark there stands alone. -/
def leadingOperators : List String := ["..=", "...", "..", "::"]

/-- Operators after a value, longer ones first. -/
def valueOperators : List String :=
  ["<<=", ">>=", "..=", "...", "&&", "||", "<<", ">>", "+=", "-=", "*=", "/=", "%=", "^=", "&=",
    "|=", "==", "!=", "<=", ">=", "->", "=>", "::", ".."]

def valueWords : List String := ["self", "Self", "super", "crate", "true", "false"]

def State.operators (s : State) : List String :=
  if s.rules = .types ∨ 0 < s.angles then typeOperators
  else if s.before = .value ∨ s.before = .word then valueOperators
  else leadingOperators

/-- The number of marks of the operator at the front. -/
def State.operatorLength (s : State) (ts : List TokenTree) : Nat :=
  ((s.operators.find? fun op => (TokenTree.afterMarks? op.toList ts).isSome).map String.length).getD 1

/-- Whether the next token follows a mark without a blank, and the state there. -/
def State.mark (s : State) (c : Char) (joint : Bool) (ts : List TokenTree) : Bool × State :=
  if s.rules = .written ∨ c = '\'' then (joint, { s with before := .nothing })
  else
    let pending := (if s.pending = 0 then s.operatorLength ts else s.pending) - 1
    let whole := s.pending = 0 ∧ pending = 0
    let angles :=
      if !whole then s.angles
      else if c = '<' ∧ (0 < s.angles ∨ s.before = .path) then s.angles + 1
      else if c = '>' then s.angles - 1
      else s.angles
    let before : Before :=
      if c = '!' ∧ s.before = .word ∧ pending = 0 then .invocation
      else if c = ':' ∧ s.pending = 1 then .path
      else if c = '>' ∧ angles < s.angles then .value
      else .nothing
    let rules := if c = ';' then .values else s.rules
    (0 < pending, ⟨rules, before, pending, angles⟩)

/-- The rules inside a group. -/
def State.inside (s : State) (d : Delimiter) : State :=
  if s.rules = .written ∨ s.before = .invocation then .start .written
  else if d = .brace then .start .values
  else if 0 < s.angles then .start .types
  else .start s.rules

def State.afterWord (s : State) (text : String) : State :=
  { s with before := if isKeyword text && !valueWords.contains text then .nothing else .word }

/-- A group around its text; braces keep a blank on either side. -/
def enclosed (d : Delimiter) (body : List Char) : List Char :=
  let lead := if d = .brace then [' '] else []
  let trail := if d = .brace ∧ body ≠ [] then [' '] else []
  d.opening :: lead ++ body ++ trail ++ [d.closing]

def blankBefore (apart : Bool) (text : List Char) : List Char := if apart then ' ' :: text else text

/-- The text of tokens; `apart` says that a blank comes before the first one. -/
def write (s : State) (apart : Bool) : List TokenTree → List Char
  | [] => []
  | .word text _ :: ts => blankBefore apart text.toList ++ write (s.afterWord text) true ts
  | .literal text _ :: ts =>
    blankBefore apart text.toList ++ write { s with before := .value } true ts
  | .mark c joint p :: ts =>
    let (joined, next) := s.mark c joint (.mark c joint p :: ts)
    blankBefore apart [c] ++ write next (!joined) ts
  | .group d _ _ body :: ts =>
    blankBefore apart (enclosed d (write (s.inside d) false body)) ++
      write { s with before := .value } true ts

def ofType (ts : List TokenTree) : String := String.ofList (write (.start .types) false ts)

def ofValue (ts : List TokenTree) : String := String.ofList (write (.start .values) false ts)

end InlineIcons.Source.TokenText
