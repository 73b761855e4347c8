/-!
JSON values with integer numbers, and their compact text. Fields of an object keep their order; a
struct writes its fields in the order of its declaration, so the text of a value is fixed.
-/
namespace InlineIcons

inductive Json where
  | null
  | bool (b : Bool)
  | num (n : Int)
  | str (s : String)
  | arr (items : List Json)
  | obj (fields : List (String × Json))
  deriving Repr, BEq, Inhabited

namespace Json

def hexDigit (n : Nat) : Char :=
  if n < 10 then Char.ofNat (48 + n) else Char.ofNat (87 + n)

/-- A character inside a quoted text: the short escapes where JSON has them, `\u00xx` for the other
controls, all else as it is. -/
def escapeChar (c : Char) : List Char :=
  if c = '"' then ['\\', '"']
  else if c = '\\' then ['\\', '\\']
  else if c = '\x08' then ['\\', 'b']
  else if c = '\x0c' then ['\\', 'f']
  else if c = '\n' then ['\\', 'n']
  else if c = '\r' then ['\\', 'r']
  else if c = '\t' then ['\\', 't']
  else if c.toNat < 0x20 then
    ['\\', 'u', '0', '0', hexDigit (c.toNat / 16), hexDigit (c.toNat % 16)]
  else [c]

def quote (s : String) : List Char :=
  '"' :: s.toList.flatMap escapeChar ++ ['"']

mutual
def render : Json → List Char
  | null => ['n', 'u', 'l', 'l']
  | bool true => ['t', 'r', 'u', 'e']
  | bool false => ['f', 'a', 'l', 's', 'e']
  | num n => (toString n).toList
  | str s => quote s
  | arr [] => ['[', ']']
  | arr (x :: xs) => '[' :: render x ++ renderItems xs
  | obj [] => ['\x7b', '\x7d']
  | obj ((k, v) :: fs) => '\x7b' :: quote k ++ ':' :: render v ++ renderFields fs

def renderItems : List Json → List Char
  | [] => [']']
  | x :: xs => ',' :: render x ++ renderItems xs

def renderFields : List (String × Json) → List Char
  | [] => ['\x7d']
  | (k, v) :: fs => ',' :: quote k ++ ':' :: render v ++ renderFields fs
end

def compact (j : Json) : String := String.ofList j.render

def indentation (depth : Nat) : List Char := '\n' :: List.replicate (2 * depth) ' '

mutual
/-- The text of a value over several lines, two blanks deeper inside each bracket. -/
def renderLines (depth : Nat) : Json → List Char
  | arr (x :: xs) =>
    '[' :: indentation (depth + 1) ++ renderLines (depth + 1) x ++ renderLinesItems depth xs
  | obj ((k, v) :: fs) =>
    '\x7b' :: indentation (depth + 1) ++ quote k ++ ':' :: ' ' :: renderLines (depth + 1) v ++
      renderLinesFields depth fs
  | j => j.render

def renderLinesItems (depth : Nat) : List Json → List Char
  | [] => indentation depth ++ [']']
  | x :: xs =>
    ',' :: indentation (depth + 1) ++ renderLines (depth + 1) x ++ renderLinesItems depth xs

def renderLinesFields (depth : Nat) : List (String × Json) → List Char
  | [] => indentation depth ++ ['\x7d']
  | (k, v) :: fs =>
    ',' :: indentation (depth + 1) ++ quote k ++ ':' :: ' ' :: renderLines (depth + 1) v ++
      renderLinesFields depth fs
end

def pretty (j : Json) : String := String.ofList (renderLines 0 j)

/-- What an object holds under a name, as often as it is there. -/
def entries (j : Json) (key : String) : List Json :=
  match j with
  | obj fields => fields.filterMap fun (k, value) => if k = key then some value else none
  | _ => []

/-- The value of a field; a field that is not there, or there more than once, reads as `null`. -/
def field (j : Json) (key : String) : Json :=
  match j.entries key with
  | [value] => value
  | _ => null

def isNull : Json → Bool
  | null => true
  | _ => false

def str? : Json → Option String
  | str s => some s
  | _ => none

def bool? : Json → Option Bool
  | bool b => some b
  | _ => none

def arr? : Json → Option (List Json)
  | arr xs => some xs
  | _ => none

def obj? : Json → Option (List (String × Json))
  | obj fs => some fs
  | _ => none

/-- A count that fits into 64 bits. -/
def word? : Json → Option Nat
  | num (.ofNat n) => if n < UInt64.size then some n else none
  | _ => none

def texts? (j : Json) : Option (List String) := do (← j.arr?).mapM str?

def ofTexts (xs : List String) : Json := arr (xs.map str)

def ofOption (f : α → Json) : Option α → Json
  | some a => f a
  | none => null

end Json
end InlineIcons
