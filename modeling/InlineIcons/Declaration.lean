import InlineIcons.Json.Reader
import InlineIcons.Location

/-!
Component definitions: a type that asks for generated dispatch, its properties, and the types of
these as far as they matter here. Each has a JSON form.
-/
namespace InlineIcons

/-- A path from the crate root, which has the empty namespace. -/
def qualify (namespaceName name : String) : String :=
  if namespaceName.isEmpty then name else namespaceName ++ "::" ++ name

def cratePath (namespaceName name : String) : String := "crate::" ++ qualify namespaceName name

structure EnumRef where
  namespaceName : String
  name : String
  members : List String
  deriving DecidableEq, Repr, Inhabited

namespace EnumRef

def path (e : EnumRef) : String := qualify e.namespaceName e.name

def qualifiedPath (e : EnumRef) : String := cratePath e.namespaceName e.name

def fields (e : EnumRef) : List (String × Json) :=
  [("namespace", .str e.namespaceName), ("name", .str e.name), ("members", .ofTexts e.members)]

def toJson (e : EnumRef) : Json := .obj e.fields

def ofJson? (j : Json) : Option EnumRef := do
  let namespaceName ← (j.field "namespace").str?
  let name ← (j.field "name").str?
  let members ← (j.field "members").texts?
  return ⟨namespaceName, name, members⟩

end EnumRef

/-- A property's type: how it is written, and what it is. -/
inductive TypeRef where
  | enumeration (display : String) (target : EnumRef)
  | optional (display : String) (inner : TypeRef)
  | other (display : String)
  deriving DecidableEq, Repr, Inhabited

namespace TypeRef

def display : TypeRef → String
  | enumeration d _ => d
  | optional d _ => d
  | other d => d

def ofEnum (e : EnumRef) : TypeRef := enumeration e.name e

def optionalOf (inner : TypeRef) : TypeRef :=
  optional ("Option<" ++ inner.display ++ ">") inner

def enum? : TypeRef → Option EnumRef
  | enumeration _ e => some e
  | _ => none

def isOptional : TypeRef → Bool
  | optional _ _ => true
  | _ => false

def isOther : TypeRef → Bool
  | other _ => true
  | _ => false

def toJson : TypeRef → Json
  | enumeration d e => .obj [("display", .str d), ("kind", .obj (("kind", .str "enum") :: e.fields))]
  | optional d inner =>
    .obj [("display", .str d), ("kind", .obj [("kind", .str "optional"), ("inner", inner.toJson)])]
  | other d => .obj [("display", .str d), ("kind", .obj [("kind", .str "other")])]

/-- Reads a type in which no more than the given number of types, itself included, lie inside one another. -/
def ofJsonWithin? : Nat → Json → Option TypeRef
  | 0, _ => none
  | levels + 1, j => do
    let display ← (j.field "display").str?
    let kind := j.field "kind"
    match ← (kind.field "kind").str? with
    | "enum" => return enumeration display (← EnumRef.ofJson? kind)
    | "optional" => return optional display (← ofJsonWithin? levels (kind.field "inner"))
    | "other" => return other display
    | _ => none

/-- How many types can lie inside one another where brackets nest no deeper than a text may have them: the
type of a property is in the third bracket of its declaration, and each type adds two. -/
def maxLevels : Nat := (Json.maxNesting - 3) / 2

def ofJson? (j : Json) : Option TypeRef := ofJsonWithin? maxLevels j

end TypeRef

/-- What a definition asks for: which property holds the kind, and which the extra attributes. -/
structure Directive where
  kindProperty : String
  extrasProperty : String
  location : Location
  deriving DecidableEq, Repr, Inhabited

namespace Directive

def toJson (d : Directive) : Json :=
  .obj [("kind_property", .str d.kindProperty), ("extras_property", .str d.extrasProperty),
    ("location", d.location.toJson)]

def ofJson? (j : Json) : Option Directive := do
  let kindProperty ← (j.field "kind_property").str?
  let extrasProperty ← (j.field "extras_property").str?
  let location ← Location.ofField? j "location"
  return ⟨kindProperty, extrasProperty, location⟩

end Directive

structure Property where
  name : String
  type : TypeRef
  location : Location
  deriving DecidableEq, Repr, Inhabited

namespace Property

def toJson (p : Property) : Json :=
  .obj [("name", .str p.name), ("ty", p.type.toJson), ("location", p.location.toJson)]

def ofJson? (j : Json) : Option Property := do
  let name ← (j.field "name").str?
  let type ← TypeRef.ofJson? (j.field "ty")
  let location ← Location.ofField? j "location"
  return ⟨name, type, location⟩

end Property

/-- The identity of a definition: its path from the crate root. -/
structure DefinitionId where
  text : String
  deriving DecidableEq, Repr, Inhabited

def DefinitionId.of (namespaceName typeName : String) : DefinitionId :=
  ⟨qualify namespaceName typeName⟩

structure Declaration where
  namespaceName : String
  typeName : String
  directive : Directive
  properties : List Property
  location : Location
  deriving DecidableEq, Repr, Inhabited

namespace Declaration

def id (d : Declaration) : DefinitionId := .of d.namespaceName d.typeName

def property? (d : Declaration) (name : String) : Option Property :=
  d.properties.find? (·.name == name)

def toJson (d : Declaration) : Json :=
  .obj [("namespace", .str d.namespaceName), ("type_name", .str d.typeName),
    ("directive", d.directive.toJson), ("properties", .arr (d.properties.map Property.toJson)),
    ("location", d.location.toJson)]

def ofJson? (j : Json) : Option Declaration := do
  let namespaceName ← (j.field "namespace").str?
  let typeName ← (j.field "type_name").str?
  let directive ← Directive.ofJson? (j.field "directive")
  let properties ← (← (j.field "properties").arr?).mapM Property.ofJson?
  let location ← Location.ofField? j "location"
  return ⟨namespaceName, typeName, directive, properties, location⟩

def ofText? (s : String) : Option Declaration := do ofJson? (← Json.ofText? s)

end Declaration
end InlineIcons
