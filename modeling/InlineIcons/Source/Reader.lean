import InlineIcons.Source.Token

/-!
Readers of token trees. A reader takes tokens from the front of a group and may fail at the next
token, or at the end of the group if there is none. Tokens that a finished reader leaves in an inner
group are a fault too, but only once everything else has been read.
-/
namespace InlineIcons.Source

inductive SyntaxCause where
  /-- The text cannot be read as tokens. -/
  | unreadable
  /-- One of the given things had to come; `ended` says that the group ended instead. -/
  | expected (options : List String) (ended : Bool)
  | keyword (word : String)
  /-- More tokens than wanted, inside the given brackets if any. -/
  | unread (inside : Option Delimiter)
  | rule (text : String)
  deriving DecidableEq, Repr

namespace SyntaxCause

def expectation : List String → String
  | [] => "unexpected token"
  | [a] => s!"expected {a}"
  | [a, b] => s!"expected {a} or {b}"
  | options => "expected one of: " ++ ", ".intercalate options

def message : SyntaxCause → String
  | unreadable => "cannot parse string into token stream"
  | expected [] true => "unexpected end of input"
  | expected options true => "unexpected end of input, " ++ expectation options
  | expected options false => expectation options
  | keyword word => s!"expected identifier, found keyword `{word}`"
  | unread none => "unexpected token"
  | unread (some d) => s!"unexpected token, expected `{d.closing}`"
  | rule text => text

end SyntaxCause

structure SyntaxFault where
  place : Position
  cause : SyntaxCause
  deriving DecidableEq, Repr

def SyntaxFault.message (f : SyntaxFault) : String := f.cause.message

/-- What is left of a group. -/
structure Stream where
  tokens : List TokenTree
  /-- Where a fault at the end of the tokens is. -/
  finish : Position
  /-- The first tokens that were left over in an inner group. -/
  unread : Option SyntaxFault

abbrev Reader := StateT Stream (Except SyntaxFault)

namespace Reader

def tokens : Reader (List TokenTree) := do return (← get).tokens

def setTokens (ts : List TokenTree) : Reader Unit := modify fun s => { s with tokens := ts }

/-- The place of the next token, or of the end. -/
def here : Reader Position := do
  let s ← get
  return (s.tokens.head?.map TokenTree.place).getD s.finish

def fail (cause : SyntaxCause) : Reader α := do throw ⟨← here, cause⟩

/-- Fails because none of the given things comes. -/
def expected (options : List String) : Reader α := do
  fail (.expected options (← tokens).isEmpty)

def atEnd : Reader Bool := do return (← tokens).isEmpty

def quoted (text : String) : String := s!"`{text}`"

def beginsMark (text : String) (ts : List TokenTree) : Bool :=
  (TokenTree.afterMarks? text.toList ts).isSome

def beginsWord (word : String) : List TokenTree → Bool
  | .word t _ :: _ => t == word
  | _ => false

/-- Whether a name comes: a word that is no keyword. -/
def beginsName : List TokenTree → Bool
  | .word t _ :: _ => !isKeyword t
  | _ => false

def beginsGroup (d : Delimiter) : List TokenTree → Bool
  | .group d' _ _ _ :: _ => d = d'
  | _ => false

def beginsLifetime : List TokenTree → Bool
  | .mark '\'' _ _ :: .word _ _ :: _ => true
  | _ => false

/-- The tokens after the next one; a lifetime counts as one. -/
def afterOne : List TokenTree → List TokenTree
  | .mark '\'' _ _ :: .word _ _ :: ts => ts
  | _ :: ts => ts
  | [] => []

def peek (test : List TokenTree → Bool) : Reader Bool := do return test (← tokens)

def peekMark (text : String) : Reader Bool := peek (beginsMark text)

def peekWord (word : String) : Reader Bool := peek (beginsWord word)

/-- Takes a mark. A missing one is reported without a word on the end of the group. -/
def mark (text : String) : Reader Unit := do
  match TokenTree.afterMarks? text.toList (← tokens) with
  | some rest => setTokens rest
  | none => fail (.expected [quoted text] false)

def mark? (text : String) : Reader Bool := do
  match TokenTree.afterMarks? text.toList (← tokens) with
  | some rest => setTokens rest; return true
  | none => return false

def word? (word : String) : Reader Bool := do
  match ← tokens with
  | .word t _ :: rest => if t = word then setTokens rest; return true else return false
  | _ => return false

def word (word : String) : Reader Unit := do
  if !(← word? word) then expected [quoted word]

def anyWord : Reader String := do
  match ← tokens with
  | .word t _ :: rest => setTokens rest; return t
  | _ => expected ["identifier"]

def name : Reader String := do
  match ← tokens with
  | .word t _ :: rest => if isKeyword t then fail (.keyword t) else setTokens rest; return t
  | _ => expected ["identifier"]

def lifetime : Reader String := do
  match ← tokens with
  | .mark '\'' _ _ :: .word t _ :: rest => setTokens rest; return t
  | _ => expected ["lifetime"]

def delimiterName : Delimiter → String
  | .parenthesis => "parentheses"
  | .bracket => "square brackets"
  | .brace => "curly braces"

/-- Reads the inside of a group. What is left there is remembered. -/
def inGroup (d : Delimiter) (body : Reader α) : Reader α := do
  let s ← get
  match s.tokens with
  | .group d' _ closing inner :: rest =>
    if d ≠ d' then expected [delimiterName d]
    else
      let (x, s') ← body.run ⟨inner, closing, s.unread⟩
      let leftover := s'.tokens.head?.map fun t => ⟨t.place, .unread (some d)⟩
      set (⟨rest, s.finish, s'.unread.or leftover⟩ : Stream)
      return x
  | _ => expected [delimiterName d]

def skipGroup (d : Delimiter) : Reader Unit := inGroup d (setTokens [])

/-- Passes over everything up to the first token that the test accepts, or to the end. -/
def skipUntil (test : List TokenTree → Bool) : Reader Unit := do
  let rec go : List TokenTree → List TokenTree
    | [] => []
    | t :: ts => if test (t :: ts) then t :: ts else go ts
  setTokens (go (← tokens))

/-- Items with a mark between them until `stop` holds; a last mark is allowed. -/
def separatedWithin (separator : String) (stop : Reader Bool) (item : Reader α) :
    Nat → Reader (List α)
  | 0 => return []
  | bound + 1 => do
    if ← stop then return []
    let x ← item
    if ← stop then return [x]
    mark separator
    return x :: (← separatedWithin separator stop item bound)

/-- Each item but the last takes a token for its mark, so the tokens bound the number of items. -/
def separated (separator : String) (stop : Reader Bool) (item : Reader α) : Reader (List α) := do
  separatedWithin separator stop item ((← tokens).length + 1)

/-- All that a group holds, as items between commas. -/
def commaList (item : Reader α) : Reader (List α) := separated "," atEnd item

/-- Items joined by `+`: another one is read only after a `+`, and then unless `stop` holds. -/
def joinedWithin (stop : Reader Bool) (item : Reader α) : Nat → Reader (List α)
  | 0 => return []
  | bound + 1 => do
    if ← stop then return []
    let x ← item
    if ← mark? "+" then return x :: (← joinedWithin stop item bound) else return [x]

def joined (stop : Reader Bool) (item : Reader α) : Reader (List α) := do
  joinedWithin stop item ((← tokens).length + 1)

/-- Items as long as `more` holds. -/
def whileWithin (more : Reader Bool) (item : Reader α) : Nat → Reader (List α)
  | 0 => return []
  | bound + 1 => do
    if ← more then return (← item) :: (← whileWithin more item bound) else return []

def whileHolds (more : Reader Bool) (item : Reader α) : Reader (List α) := do
  whileWithin more item ((← tokens).length + 1)

/-- Reads all the given tokens; a fault at their end is reported at `finish`. -/
def runAll (r : Reader α) (finish : Position) (ts : List TokenTree) : Except SyntaxFault α := do
  let (x, s) ← r.run ⟨ts, finish, none⟩
  if let some fault := s.unread then throw fault
  match s.tokens with
  | [] => return x
  | t :: _ => throw ⟨t.place, .unread none⟩

def runText (r : Reader α) (cs : List Char) : Except SyntaxFault α :=
  match TokenTree.ofChars cs with
  | .ok ts => r.runAll .start ts
  | .error p => .error ⟨p, .unreadable⟩

end Reader
end InlineIcons.Source
