import InlineIcons.Identifier
import InlineIcons.Markup.Tree
import InlineIcons.Path

/-!
Icons. An icon is loaded from the path and the content of one file: the file stem names it, the
root's attributes and the canonical text of the root's child elements are what gets embedded.
-/
namespace InlineIcons

inductive AssetError where
  | malformed (path : Path) (position : Nat) (message : String)
  | noRoot (path : Path)
  | outsideRoot (path : Path)
  | invalidName (path : Path) (cause : StemError)
  deriving DecidableEq, Repr

namespace AssetError

def path : AssetError → Path
  | malformed p _ _ => p
  | noRoot p => p
  | outsideRoot p => p
  | invalidName p _ => p

def message : AssetError → String
  | malformed p position m => s!"malformed XML in {p.text} at byte {position}: {m}"
  | noRoot p => s!"no root element in {p.text}"
  | outsideRoot p => s!"content outside the root element in {p.text}"
  | invalidName p cause => s!"invalid asset name {p.text}: {cause.message}"

/-- Only a fault of the reader itself has a position; the others are reported at the start. -/
def ofFault (path : Path) : Markup.DocumentFault → AssetError
  | .reading fault position => malformed path position fault.message
  | .tag fault => malformed path 0 fault.message
  | .entity fault => malformed path 0 fault.message
  | .notClosed => malformed path 0 "unclosed element at end of input"
  | .noRoot => noRoot path
  | .outsideRoot => outsideRoot path

end AssetError

structure Asset where
  identifier : String
  attributes : List (String × String)
  body : String
  deriving DecidableEq, Repr, Inhabited

namespace Asset

def markup (a : Asset) : String :=
  String.ofList ("<svg".toList ++ Markup.renderAttributes a.attributes ++ '>' ::
    a.body.toList ++ "</svg>".toList)

/-- What is kept of a document: text and comments right under the root are not. -/
def ofRoot (identifier : String) (root : Markup.Root) : Asset :=
  { identifier
    attributes := root.tag.attributes
    body := String.ofList (Markup.Node.renderAll (root.children.filter Markup.Node.isElement)) }

/-- Loads an icon; the name is checked before the content. -/
def load (path : Path) (content : String) : Except AssetError Asset :=
  match Stem.toIdentifier (path.fileStem?.getD "") with
  | .error cause => .error (.invalidName path cause)
  | .ok identifier =>
    match Markup.Root.ofContent content.toList with
    | .error fault => .error (.ofFault path fault)
    | .ok root => .ok (ofRoot identifier root)

end Asset
end InlineIcons
