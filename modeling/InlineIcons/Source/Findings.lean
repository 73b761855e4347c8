import InlineIcons.Declaration
import InlineIcons.Source.DirectiveArgs
import InlineIcons.Source.ModulePath
import InlineIcons.Source.ParseError

/-!
What a source file holds for the generator: structs that carry the directive, enums without data,
and the directives that are refused. A refused directive costs its struct and nothing else.
-/
namespace InlineIcons.Source

structure ComponentField where
  /-- Its name, or its number where it has none. -/
  name : String
  type : TypeExpr
  location : Location

structure Component where
  namespaceName : String
  name : String
  directive : Directive
  fields : List ComponentField
  location : Location

structure Findings where
  components : List Component
  enums : List EnumRef
  errors : List ParseError

namespace Findings

def none : Findings := ⟨[], [], []⟩

instance : Append Findings :=
  ⟨fun a b => ⟨a.components ++ b.components, a.enums ++ b.enums, a.errors ++ b.errors⟩⟩

end Findings

def Position.inFile (p : Position) (file : Path) : Location := ⟨file, p.line, p.column⟩

/-- Where and under what name items are looked for. -/
structure Search where
  file : Path
  directive : String

namespace Search

/-- The first attribute whose path ends in the directive. -/
def attribute? (s : Search) (item : StructItem) : Option Attribute :=
  item.attributes.find? fun a => a.lastName? == some s.directive

def field (s : Search) (index : Nat) (f : Field) : ComponentField :=
  ⟨f.name.getD (toString index), f.type, f.place.inFile s.file⟩

def component (s : Search) (namespaceName : String) (item : StructItem) (location : Location)
    (properties : String × String) : Component where
  namespaceName
  name := item.name
  directive := ⟨properties.1, properties.2, location⟩
  fields := item.fields.mapIdx s.field
  location := item.place.inFile s.file

/-- The component that a struct with the directive is, or why it is refused. -/
def component? (s : Search) (namespaceName : String) (item : StructItem) (a : Attribute) :
    Except ParseError Component :=
  let location := a.place.inFile s.file
  if item.generic then .error (.directive location (genericRefusal item.name))
  else match DirectiveArgs.ofAttribute a with
    | .ok properties => .ok (s.component namespaceName item location properties)
    | .error fault => .error (.directive location fault.message)

def ofStruct (s : Search) (namespaceName : String) (item : StructItem) : Findings :=
  match s.attribute? item with
  | none => .none
  | some a =>
    match s.component? namespaceName item a with
    | .ok c => ⟨[c], [], []⟩
    | .error e => ⟨[], [], [e]⟩

/-- Only an enum without data can choose an icon. -/
def ofEnum (namespaceName : String) (e : EnumItem) : Findings :=
  if e.variants.any Variant.hasData then .none
  else ⟨[], [⟨namespaceName, e.name, e.variants.map Variant.name⟩], []⟩

mutual
def ofItem (s : Search) (namespaceName : String) : Item → Findings
  | .struct item => s.ofStruct namespaceName item
  | .enum e => ofEnum namespaceName e
  | .nested name items => ofItems s (qualify namespaceName name) items
  | .other => .none

def ofItems (s : Search) (namespaceName : String) : List Item → Findings
  | [] => .none
  | item :: items => ofItem s namespaceName item ++ ofItems s namespaceName items
end

def ofText (s : Search) (namespaceName text : String) : Except ParseError Findings :=
  match Item.ofText? text with
  | .ok items => .ok (s.ofItems namespaceName items)
  | .error fault => .error (.malformed (fault.place.inFile s.file) fault.message)

end Search
end InlineIcons.Source
