import InlineIcons.Toml.Number

/-!
Reading TOML: texts, keys and values, and a document as the list of its lines.
-/
namespace InlineIcons.Toml

inductive Value where
  | text (s : String)
  | flag (b : Bool)
  /-- A number or a date. -/
  | plain
  | array (items : List Value)
  | table (fields : List (String × Value))
  deriving Repr, Inhabited

/-- A value as it stands in a document; an inline table has its lines. -/
inductive Written where
  | text (s : String)
  | flag (b : Bool)
  | plain
  | array (items : List Written)
  | inline (lines : List (List String × Written))
  deriving Repr, Inhabited

inductive Line where
  /-- `[a.b]` -/
  | header (path : List String)
  /-- `[[a.b]]` -/
  | element (path : List String)
  /-- `a.b = value` -/
  | entry (path : List String) (value : Written)

/-- A reader takes characters from the front of a text, or fails. -/
abbrev Reader := StateT (List Char) Option

namespace Reader

def rest : Reader (List Char) := get

def skip (n : Nat) : Reader Unit := modify (List.drop n)

def skipWhile (test : Char → Bool) : Reader Unit := modify (List.dropWhile test)

def takeWhile (test : Char → Bool) : Reader (List Char) := do
  let cs ← rest
  set (cs.dropWhile test)
  return cs.takeWhile test

def mark? (mark : String) : Reader Bool := do
  if mark.toList.isPrefixOf (← rest) then
    skip mark.toList.length
    return true
  return false

def mark (text : String) : Reader Unit := do
  if !(← mark? text) then failure

def isSpace (c : Char) : Bool := c = ' ' || c = '\t'

def spaces : Reader Unit := skipWhile isSpace

/-- Characters that may stand in a text or comment on one line. -/
def isInline (c : Char) : Bool := c = '\t' || (0x20 ≤ c.toNat && c.toNat ≠ 0x7F)

/-- The end of a line, which may be that of the document. -/
def newline? : Reader Bool := do
  return (← mark? "\n") || (← mark? "\r\n")

def comment : Reader Unit := do
  if ← mark? "#" then skipWhile isInline

def endLine : Reader Unit := do
  spaces
  comment
  if !(← rest).isEmpty && !(← newline?) then failure

def gapWithin : Nat → Reader Unit
  | 0 => return
  | bound + 1 => do
    spaces
    comment
    if ← newline? then gapWithin bound

def gap : Reader Unit := do gapWithin ((← rest).length + 1)

def charOf (n : Nat) : Reader Char := do
  if n.isValidChar then return Char.ofNat n else failure

def hexChar (width : Nat) : Reader Char := do
  let digits := (← rest).take width
  if digits.length < width || !digits.all isHex then failure
  skip width
  charOf (digitsValue 16 digits)

def escape : Reader Char := do
  match ← rest with
  | c :: cs =>
    set cs
    match c with
    | 'b' => return '\x08'
    | 't' => return '\t'
    | 'n' => return '\n'
    | 'f' => return '\x0c'
    | 'r' => return '\r'
    | 'e' => return '\x1b'
    | '"' => return '"'
    | '\\' => return '\\'
    | 'x' => hexChar 2
    | 'u' => hexChar 4
    | 'U' => hexChar 8
    | _ => failure
  | [] => failure

def quotedWithin : Nat → Reader (List Char)
  | 0 => failure
  | bound + 1 => do
    match ← rest with
    | '"' :: cs =>
      set cs
      return []
    | '\\' :: cs =>
      set cs
      return (← escape) :: (← quotedWithin bound)
    | c :: cs =>
      if !isInline c then failure
      set cs
      return c :: (← quotedWithin bound)
    | [] => failure

def quoted : Reader (List Char) := do quotedWithin ((← rest).length + 1)

/-- A text without escapes on one line after its opening quote. -/
def literal : Reader (List Char) := do
  let cs ← takeWhile fun c => isInline c && c ≠ '\''
  mark "'"
  return cs

/-- A backslash at the end of a line takes the blanks and ends of lines after it. -/
def continued? : Reader Bool := do
  let cs ← rest
  spaces
  if ← newline? then
    skipWhile fun c => isSpace c || c = '\n' || c = '\r'
    return true
  set cs
  return false

/-- Quotes in a text of several lines: three end it, and up to two before them belong to it. -/
def endingQuotes? (quote : Char) : Reader (Option (List Char)) := do
  let count := (((← rest).take 5).takeWhile (· == quote)).length
  if count < 3 then return none
  skip count
  return some (List.replicate (count - 3) quote)

/-- A text of several lines after its opening quotes. -/
def linesWithin (quote : Char) : Nat → Reader (List Char)
  | 0 => failure
  | bound + 1 => do
    if let some ending ← endingQuotes? quote then return ending
    if ← newline? then return '\n' :: (← linesWithin quote bound)
    match ← rest with
    | c :: cs =>
      set cs
      if c = '\\' && quote = '"' then
        if ← continued? then linesWithin quote bound
        else return (← escape) :: (← linesWithin quote bound)
      else if isInline c then return c :: (← linesWithin quote bound)
      else failure
    | [] => failure

/-- The end of a line right after the opening quotes does not count. -/
def lines (quote : Char) : Reader (List Char) := do
  discard newline?
  linesWithin quote ((← rest).length + 1)

def isBare (c : Char) : Bool := c.isAlphanum || c = '_' || c = '-'

def keyPart : Reader String := do
  if ← mark? "\"" then return String.ofList (← quoted)
  if ← mark? "'" then return String.ofList (← literal)
  let cs ← takeWhile isBare
  if cs.isEmpty then failure
  return String.ofList cs

def keyWithin : Nat → Reader (List String)
  | 0 => failure
  | bound + 1 => do
    let part ← keyPart
    spaces
    if ← mark? "." then
      spaces
      return part :: (← keyWithin bound)
    return [part]

/-- The parts of a key, with the blanks after it. -/
def key : Reader (List String) := do keyWithin ((← rest).length + 1)

/-- Characters of words that are no texts. -/
def isWordChar (c : Char) : Bool := isBare c || c = '+' || c = '.' || c = ':'

/-- A word that is no text; a time may follow a date after a blank. -/
def word : Reader Written := do
  let cs ← takeWhile isWordChar
  if cs = "true".toList then return .flag true
  if cs = "false".toList then return .flag false
  let cs ← if isDate cs then
      match ← rest with
      | ' ' :: c :: _ =>
        if c.isDigit then
          skip 1
          pure (cs ++ ' ' :: (← takeWhile isWordChar))
        else pure cs
      | _ => pure cs
    else pure cs
  if isPlain cs then return .plain else failure

/-- Items between commas up to a closing mark; a last comma is allowed. -/
def listWithin (close : String) (item : Reader α) : Nat → Reader (List α)
  | 0 => failure
  | bound + 1 => do
    gap
    if ← mark? close then return []
    let x ← item
    gap
    if ← mark? "," then return x :: (← listWithin close item bound)
    mark close
    return [x]

def list (close : String) (item : Reader α) : Reader (List α) := do
  listWithin close item ((← rest).length + 1)

def entry (value : Reader Written) : Reader (List String × Written) := do
  let path ← key
  mark "="
  spaces
  return (path, ← value)

/-- A value that nests no deeper than the bound. -/
def valueWithin : Nat → Reader Written
  | 0 => failure
  | depth + 1 => do
    if ← mark? "\"\"\"" then return .text (String.ofList (← lines '"'))
    if ← mark? "'''" then return .text (String.ofList (← lines '\''))
    if ← mark? "\"" then return .text (String.ofList (← quoted))
    if ← mark? "'" then return .text (String.ofList (← literal))
    if ← mark? "[" then return .array (← list "]" (valueWithin depth))
    if ← mark? "\x7b" then return .inline (← list "\x7d" (entry (valueWithin depth)))
    word

/-- Each level of nesting takes a character. -/
def value : Reader Written := do valueWithin ((← rest).length + 1)

def header (close : String) : Reader (List String) := do
  spaces
  let path ← key
  mark close
  return path

def line : Reader Line := do
  if ← mark? "[[" then return .element (← header "]]")
  if ← mark? "[" then return .header (← header "]")
  let (path, v) ← entry value
  return .entry path v

/-- The lines of a document; those that are empty do not count. -/
def documentWithin : Nat → Reader (List Line)
  | 0 => failure
  | bound + 1 => do
    gap
    if (← rest).isEmpty then return []
    let l ← line
    endLine
    return l :: (← documentWithin bound)

/-- A mark of the byte order at the front does not count. -/
def document : Reader (List Line) := do
  discard (mark? "\uFEFF")
  documentWithin ((← rest).length + 1)

end Reader
end InlineIcons.Toml
