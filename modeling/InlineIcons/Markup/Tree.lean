import InlineIcons.Markup.Event
import InlineIcons.Text.Blank

/-!
Documents as trees, built from events, and their canonical text: attributes in double quotes after
one blank each, `/>` for an element without children.
-/
namespace InlineIcons.Markup

inductive Node where
  | element (tag : Tag) (children : List Node)
  | text (content : String)
  | cdata (data : String)
  | comment (content : String)
  deriving Repr, Inhabited

structure Root where
  tag : Tag
  children : List Node
  deriving Repr

inductive DocumentFault where
  | reading (fault : ReadFault) (position : Nat)
  | tag (fault : TagFault)
  | entity (fault : Entity.Fault)
  | notClosed
  | noRoot
  | outsideRoot
  deriving DecidableEq, Repr

/-- A document in the making: the open elements, innermost first, and the root once it is closed. -/
structure Building where
  openElements : List (Tag × List Node)
  root : Option Root

namespace Building

def start : Building := ⟨[], none⟩

/-- Adds a node to the innermost open element; outside the root it has no place. -/
def add (b : Building) (n : Node) : Except DocumentFault Building :=
  match b.openElements with
  | (tag, children) :: outer => .ok { b with openElements := (tag, children ++ [n]) :: outer }
  | [] => .error .outsideRoot

/-- A whole element: a node of the innermost open element, or the root. -/
def addElement (b : Building) (tag : Tag) (children : List Node) : Except DocumentFault Building :=
  match b.openElements with
  | _ :: _ => b.add (.element tag children)
  | [] => if b.root.isSome then .error .outsideRoot else .ok { b with root := some ⟨tag, children⟩ }

def readTag (text : List Char) : Except DocumentFault Tag :=
  match Tag.read text with
  | .ok tag => .ok tag
  | .error e => .error (.tag e)

/-- A second root is refused before its tag is read, unless it is an empty tag. -/
def step (b : Building) : Event → Except DocumentFault Building
  | .startTag text =>
    if b.openElements.isEmpty && b.root.isSome then .error .outsideRoot
    else do
      let tag ← readTag text
      return { b with openElements := (tag, []) :: b.openElements }
  | .emptyTag text => do
    let tag ← readTag text
    b.addElement tag []
  | .endTag =>
    match b.openElements with
    | (tag, children) :: outer => { b with openElements := outer }.addElement tag children
    | [] => .ok b
  | .text raw =>
    match Entity.unescape raw with
    | .error e => .error (.entity e)
    | .ok content =>
      if content.all Text.isBlank then .ok b else b.add (.text (String.ofList content))
  | .cdata data => b.add (.cdata (String.ofList data))
  | .comment text =>
    if b.openElements.isEmpty then .ok b else b.add (.comment (String.ofList text))
  | .ignored => .ok b

def run (b : Building) (events : List Event) : Except DocumentFault Building := events.foldlM step b

end Building

/-- The root of a content's single element. -/
def Root.ofContent (content : List Char) : Except DocumentFault Root := do
  let reading := read content
  let b ← Building.start.run reading.events
  match reading.fault with
  | some (fault, position) => .error (.reading fault position)
  | none =>
    if b.openElements.isEmpty then
      match b.root with
      | some root => .ok root
      | none => .error .noRoot
    else .error .notClosed

def renderAttributes (attributes : List (String × String)) : List Char :=
  attributes.flatMap fun (key, value) =>
    ' ' :: key.toList ++ '=' :: '"' :: Entity.escape value.toList ++ ['"']

mutual
def Node.render : Node → List Char
  | .element tag [] => '<' :: tag.name.toList ++ renderAttributes tag.attributes ++ ['/', '>']
  | .element tag (child :: more) =>
    '<' :: tag.name.toList ++ renderAttributes tag.attributes ++ '>' ::
      (child.render ++ Node.renderAll more) ++ '<' :: '/' :: tag.name.toList ++ ['>']
  | .text content => Entity.escapeText content.toList
  | .cdata data => "<![CDATA[".toList ++ data.toList ++ [']', ']', '>']
  | .comment content => ['<', '!', '-', '-'] ++ content.toList ++ ['-', '-', '>']

def Node.renderAll : List Node → List Char
  | [] => []
  | n :: ns => n.render ++ Node.renderAll ns
end

def Node.isElement : Node → Bool
  | .element _ _ => true
  | _ => false

end InlineIcons.Markup
