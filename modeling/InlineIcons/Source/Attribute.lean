import InlineIcons.Source.Quoted
import InlineIcons.Source.Reader

/-!
Attributes: a path, and either arguments in brackets, a value, or nothing.
-/
namespace InlineIcons.Source
open Reader

inductive AttributeArgs where
  | none
  | value
  | list (tokens : List TokenTree) (closing : Position)

structure Attribute where
  /-- The place of the mark that begins the attribute. -/
  place : Position
  rooted : Bool
  path : List String
  args : AttributeArgs

namespace Attribute

def pathText (a : Attribute) : String :=
  (if a.rooted then "::" else "") ++ "::".intercalate a.path

def lastName? (a : Attribute) : Option String := a.path.getLast?

def beginsPart (ts : List TokenTree) : Bool :=
  beginsName ts || ["super", "self", "Self", "crate"].any (beginsWord · ts)

def partsWithin : Nat → Reader (List String)
  | 0 => return []
  | bound + 1 => do
    if !(← peek beginsPart) then expected ["path segment after `::`"]
    let part ← anyWord
    if ← mark? "::" then return part :: (← partsWithin bound) else return [part]

def simplePath : Reader (Bool × List String) := do
  let rooted ← mark? "::"
  if !(← peek beginsPart) then discard name
  return (rooted, ← partsWithin ((← tokens).length + 1))

/-- What stands between the brackets of an attribute. -/
def content (place : Position) : Reader Attribute := do
  let (rooted, path) ←
    if ← word? "unsafe" then pure (false, ["unsafe"]) else simplePath
  match ← tokens with
  | .group _ _ closing inner :: rest =>
    setTokens rest
    return ⟨place, rooted, path, .list inner closing⟩
  | _ =>
    if ← mark? "=" then
      setTokens []
      return ⟨place, rooted, path, .value⟩
    return ⟨place, rooted, path, .none⟩

def read : Reader Attribute := do
  let place ← here
  mark "#"
  inGroup .bracket (content place)

/-- The attributes before an item. -/
def outer : Reader (List Attribute) := whileHolds (peekMark "#") read

/-- The attributes at the front of a file or body, which belong to what surrounds them. -/
def inner : Reader Unit := do
  discard <| whileHolds (peek fun ts => beginsMark "#" ts && beginsMark "!" (ts.drop 1)) do
    let place ← here
    mark "#"
    mark "!"
    inGroup .bracket (content place)

end Attribute
end InlineIcons.Source
