import InlineIcons.Json.Basic
import InlineIcons.Text.Word

/-!
Reading JSON text. Brackets nest no deeper than a fixed number of levels, and numbers are integers: a
number with a fraction or an exponent is no value here. An object keeps its fields as they are written,
those with the same name too.
-/
namespace InlineIcons.Json

/-- How deep the brackets of a text may nest. -/
def maxNesting : Nat := 127

def isSpace (c : Char) : Bool := c = ' ' || c = '\t' || c = '\n' || c = '\r'

def skipSpace (cs : List Char) : List Char := cs.dropWhile isSpace

def hexUnit? : List Char → Option (Nat × List Char)
  | a :: b :: c :: d :: rest => do
    let high := 16 * (← Text.hexValue? a) + (← Text.hexValue? b)
    let low := 16 * (← Text.hexValue? c) + (← Text.hexValue? d)
    return (256 * high + low, rest)
  | _ => none

/-- The character of a `\u` escape. One beyond four digits is written as two escapes, each of which alone
is no character. -/
def unicodeEscape? (cs : List Char) : Option (Char × List Char) := do
  let (unit, rest) ← hexUnit? cs
  if unit < 0xD800 || 0xE000 ≤ unit then return (Char.ofNat unit, rest)
  if 0xDC00 ≤ unit then none
  match rest with
  | '\\' :: 'u' :: rest => do
    let (second, rest) ← hexUnit? rest
    if second < 0xDC00 || 0xE000 ≤ second then none
    return (Char.ofNat (0x10000 + 0x400 * (unit - 0xD800) + (second - 0xDC00)), rest)
  | _ => none

def character? : List Char → Option (Char × List Char)
  | '\\' :: 'u' :: rest => unicodeEscape? rest
  | '\\' :: 'b' :: rest => some ('\x08', rest)
  | '\\' :: 'f' :: rest => some ('\x0c', rest)
  | '\\' :: 'n' :: rest => some ('\n', rest)
  | '\\' :: 'r' :: rest => some ('\r', rest)
  | '\\' :: 't' :: rest => some ('\t', rest)
  | '\\' :: c :: rest => if c = '"' || c = '\\' || c = '/' then some (c, rest) else none
  | c :: rest => if c = '\\' || c.toNat < 0x20 then none else some (c, rest)
  | [] => none

/-- Parts up to a closing mark, which is taken too. The bound is on their number. -/
def readUntil (close : Char) (read : List Char → Option (α × List Char)) :
    Nat → List Char → Option (List α × List Char)
  | 0, _ => none
  | _ + 1, [] => none
  | bound + 1, c :: rest =>
    if c = close then some ([], rest)
    else do
      let (x, rest) ← read (c :: rest)
      let (xs, rest) ← readUntil close read bound rest
      return (x :: xs, rest)

/-- A text after its opening quote. -/
def readText (cs : List Char) : Option (String × List Char) := do
  let (chars, rest) ← readUntil '"' character? cs.length cs
  return (String.ofList chars, rest)

/-- Digits without a needless zero before them, and no fraction or exponent after them. -/
def readDigits (cs : List Char) : Option (Nat × List Char) :=
  let digits := cs.takeWhile Char.isDigit
  let rest := cs.dropWhile Char.isDigit
  let n := Nat.ofDigitChars 10 digits 0
  if n.repr.toList ≠ digits || rest.head?.any ['.', 'e', 'E'].contains then none
  else some (n, rest)

/-- An integer; there is no negative zero. -/
def readNumber : List Char → Option (Json × List Char)
  | '-' :: cs => do
    let (n, rest) ← readDigits cs
    if n = 0 then none else return (num (-n), rest)
  | cs => do
    let (n, rest) ← readDigits cs
    return (num n, rest)

def readPlain : List Char → Option (Json × List Char)
  | 'n' :: 'u' :: 'l' :: 'l' :: rest => some (null, rest)
  | 't' :: 'r' :: 'u' :: 'e' :: rest => some (bool true, rest)
  | 'f' :: 'a' :: 'l' :: 's' :: 'e' :: rest => some (bool false, rest)
  | '"' :: rest => do
    let (s, rest) ← readText rest
    return (str s, rest)
  | cs => readNumber cs

def readSpaced (read : List Char → Option (α × List Char)) (cs : List Char) : Option (α × List Char) := do
  let (x, rest) ← read (skipSpace cs)
  return (x, skipSpace rest)

def readNext (read : List Char → Option (α × List Char)) : List Char → Option (α × List Char)
  | ',' :: cs => readSpaced read cs
  | _ => none

/-- The parts between an opening bracket, which was taken before, and its closing mark. -/
def readList (close : Char) (read : List Char → Option (α × List Char)) (cs : List Char) :
    Option (List α × List Char) :=
  match skipSpace cs with
  | [] => none
  | c :: rest =>
    if c = close then some ([], rest)
    else do
      let (x, rest) ← readSpaced read (c :: rest)
      let (xs, rest) ← readUntil close (readNext read) rest.length rest
      return (x :: xs, rest)

def readField (read : List Char → Option (Json × List Char)) :
    List Char → Option ((String × Json) × List Char)
  | '"' :: cs => do
    let (key, rest) ← readText cs
    match skipSpace rest with
    | ':' :: rest => do
      let (value, rest) ← read (skipSpace rest)
      return ((key, value), rest)
    | _ => none
  | _ => none

/-- A value whose brackets nest within so many levels. -/
def readValue : Nat → List Char → Option (Json × List Char)
  | 0, cs => readPlain cs
  | levels + 1, '[' :: cs => do
    let (items, rest) ← readList ']' (readValue levels) cs
    return (arr items, rest)
  | levels + 1, '\x7b' :: cs => do
    let (fields, rest) ← readList '\x7d' (readField (readValue levels)) cs
    return (obj fields, rest)
  | _ + 1, cs => readPlain cs

def ofText? (s : String) : Option Json := do
  let (j, rest) ← readSpaced (readValue maxNesting) s.toList
  if rest.isEmpty then return j else none

end InlineIcons.Json
