import InlineIcons.Source.Item.Reader

/-!
The arguments of a directive: two properties, each a name or a string literal. The marker that
stands on a struct checks them more strictly than the reader of source files: a literal has to be a
name there.
-/
namespace InlineIcons.Source
open Reader

namespace DirectiveArgs

/-- Whether a text is a name, blanks and comments around it aside. -/
def isName (text : String) : Bool := (name.runText text.toList).isOk

def property (strict : Bool) : Reader String := do
  let ts ← tokens
  match ts with
  | .literal t _ :: rest =>
    match Quoted.text? t with
    | some text =>
      if strict && !isName text then fail (.rule "expected a field name")
      setTokens rest
      return text
    | none => name
  | _ => name

def read (strict : Bool) : Reader (String × String) := do
  match ← commaList (property strict) with
  | [kind, extras] => return (kind, extras)
  | _ => expected ["two arguments: the kind property and the extra attributes property"]

/-- The arguments of an attribute; brackets of any kind will do. -/
def ofAttribute (a : Attribute) : Except SyntaxFault (String × String) :=
  match a.args with
  | .list ts closing => (read false).runAll closing ts
  | .none => .error ⟨a.place,
      .rule s!"expected attribute arguments in parentheses: #[{a.pathText}(...)]"⟩
  | .value => .error ⟨a.place, .rule s!"expected parentheses: #[{a.pathText}(...)]"⟩

end DirectiveArgs

/-- What is wrong with a struct that has parameters. -/
def genericRefusal (name : String) : String := s!"generic component '{name}' is not supported"

/-- The checks of the marker on an item: its arguments, that the item is a struct, and that the
struct has no parameters. -/
def Marker.check (arguments item : List TokenTree) : Except String Unit := do
  discard (((DirectiveArgs.read true).runAll .start arguments).mapError SyntaxFault.message)
  match StructItem.reader.runAll .start item with
  | .error _ => throw "#[generate_svg] can only be applied to a struct"
  | .ok s => if s.generic then throw (genericRefusal s.name)

end InlineIcons.Source
