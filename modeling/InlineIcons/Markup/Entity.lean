import InlineIcons.Text.Cut

/-!
Character references of markup: escaping on the way out, resolving on the way in.
-/
namespace InlineIcons.Markup.Entity

inductive NumberFault where
  | empty
  | invalidDigit
  | overflow
  | sign
  | zero
  | noCharacter (code : Nat)
  deriving DecidableEq, Repr

/-- Ranges count bytes of the text that holds the reference. -/
inductive Fault where
  | unrecognized (start stop : Nat) (name : String)
  | unterminated (start stop : Nat)
  | number (fault : NumberFault)
  deriving DecidableEq, Repr

def NumberFault.message : NumberFault → String
  | empty => "cannot parse integer from empty string"
  | invalidDigit => "invalid digit found in string"
  | overflow => "number too large to fit in target type"
  | sign => "unexpected number sign"
  | zero => "0x0 character is not permitted in XML"
  | noCharacter code => s!"`{code}` is not a valid codepoint"

def Fault.message : Fault → String
  | unrecognized start stop name => s!"at {start}..{stop}: unrecognized entity `{name}`"
  | unterminated start stop =>
    s!"Error while escaping character at range {start}..{stop}: Cannot find ';' after '&'"
  | number fault => "invalid character reference: " ++ fault.message

def escapeChar (c : Char) : List Char :=
  if c = '<' then ['&', 'l', 't', ';']
  else if c = '>' then ['&', 'g', 't', ';']
  else if c = '\'' then ['&', 'a', 'p', 'o', 's', ';']
  else if c = '&' then ['&', 'a', 'm', 'p', ';']
  else if c = '"' then ['&', 'q', 'u', 'o', 't', ';']
  else [c]

/-- A character in text, where quotes stand as they are. -/
def escapeTextChar (c : Char) : List Char :=
  if c = '<' then ['&', 'l', 't', ';']
  else if c = '>' then ['&', 'g', 't', ';']
  else if c = '&' then ['&', 'a', 'm', 'p', ';']
  else [c]

def escape (cs : List Char) : List Char := cs.flatMap escapeChar

def escapeText (cs : List Char) : List Char := cs.flatMap escapeTextChar

def digitValue? (base : Nat) (c : Char) : Option Nat :=
  let v? :=
    if c.isDigit then some (c.toNat - 48)
    else if c.isLower then some (c.toNat - 87)
    else if c.isUpper then some (c.toNat - 55)
    else none
  v?.filter (· < base)

/-- Digits are read from the left; the first that is none, or that makes the number too large for
32 bits, ends the reading. -/
def readDigits (base value : Nat) : List Char → Except NumberFault Nat
  | [] => .ok value
  | c :: cs =>
    match digitValue? base c with
    | none => .error .invalidDigit
    | some d =>
      if base * value + d < UInt32.size then readDigits base (base * value + d) cs
      else .error .overflow

def readNumber (base : Nat) : List Char → Except NumberFault Nat
  | [] => .error .empty
  | '+' :: _ => .error .sign
  | '-' :: _ => .error .sign
  | cs => readDigits base 0 cs

/-- The character of a numeric reference, given what stands between `#` and `;`. -/
def readCharacter (cs : List Char) : Except NumberFault Char := do
  let code ← match cs with
    | 'x' :: hex => readNumber 16 hex
    | decimal => readNumber 10 decimal
  if code = 0 then .error .zero
  else if code.isValidChar then .ok (Char.ofNat code)
  else .error (.noCharacter code)

def named? : List Char → Option Char
  | ['l', 't'] => some '<'
  | ['g', 't'] => some '>'
  | ['a', 'm', 'p'] => some '&'
  | ['a', 'p', 'o', 's'] => some '\''
  | ['q', 'u', 'o', 't'] => some '"'
  | _ => none

/-- What a reference stands for, given the text between `&` and `;` and the place of the text. -/
def resolve (start : Nat) (name : List Char) : Except Fault Char :=
  match name with
  | '#' :: number =>
    match readCharacter number with
    | .ok c => .ok c
    | .error e => .error (.number e)
  | _ =>
    match named? name with
    | some c => .ok c
    | none =>
      .error (.unrecognized start (start + Text.byteLength name) (String.ofList name))

def inName (c : Char) : Bool := c != ';' && c != '&'

/-- Resolves every reference; `start` and `stop` are the byte range of the text that is left. -/
def unescapeFrom (start stop : Nat) (cs : List Char) : Except Fault (List Char) :=
  match cs with
  | [] => .ok []
  | '&' :: rest =>
    match _h : rest.dropWhile inName with
    | ';' :: after => do
      let name := rest.takeWhile inName
      let c ← resolve (start + 1) name
      let tail ← unescapeFrom (start + Text.byteLength name + 2) stop after
      return c :: tail
    | _ => .error (.unterminated start stop)
  | c :: rest => do
    let tail ← unescapeFrom (start + c.utf8Size) stop rest
    return c :: tail
termination_by cs.length
decreasing_by
  · have := (List.dropWhile_sublist (l := rest) inName).length_le
    rw [_h] at this
    simp at this ⊢; omega
  · simp

def unescape (cs : List Char) : Except Fault (List Char) :=
  unescapeFrom 0 (Text.byteLength cs) cs

end InlineIcons.Markup.Entity
