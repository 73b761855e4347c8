import InlineIcons.Declaration
import InlineIcons.Diagnostic

/-!
The check of a definition. The kind property must exist, then the extras property, then the kind's
type must be an enum; the first check that fails is reported, and only a definition that passes all
of them has data to generate from.
-/
namespace InlineIcons

/-- What generation needs to know about a definition. -/
structure Definition where
  namespaceName : String
  typeName : String
  kindProperty : String
  extrasProperty : String
  extrasOptional : Bool
  enum : EnumRef
  members : List String
  directiveLocation : Location
  deriving DecidableEq, Repr

namespace Definition

def id (d : Definition) : DefinitionId := .of d.namespaceName d.typeName

def toJson (d : Definition) : Json :=
  .obj [("namespace_name", .str d.namespaceName), ("type_name", .str d.typeName),
    ("kind_property_name", .str d.kindProperty), ("extras_property_name", .str d.extrasProperty),
    ("extras_optional", .bool d.extrasOptional), ("enum_type", d.enum.toJson),
    ("enum_members", .ofTexts d.members), ("directive_location", d.directiveLocation.toJson)]

/-- The members are those of the enum. -/
def ofJson? (j : Json) : Option Definition := do
  let namespaceName ← (j.field "namespace_name").str?
  let typeName ← (j.field "type_name").str?
  let kindProperty ← (j.field "kind_property_name").str?
  let extrasProperty ← (j.field "extras_property_name").str?
  let extrasOptional ← (j.field "extras_optional").bool?
  let enum ← EnumRef.ofJson? (j.field "enum_type")
  let directiveLocation ← Location.ofJson? (j.field "directive_location")
  return ⟨namespaceName, typeName, kindProperty, extrasProperty, extrasOptional, enum, enum.members,
    directiveLocation⟩

end Definition

structure Analysis where
  id : DefinitionId
  definition : Option Definition
  diagnostics : List Diagnostic
  deriving DecidableEq, Repr

namespace Analysis

def toJson (a : Analysis) : Json :=
  .obj [("id", .str a.id.text), ("metadata", .ofOption Definition.toJson a.definition),
    ("diagnostics", .arr (a.diagnostics.map Diagnostic.toJson))]

end Analysis

namespace Declaration

/-- The data of a definition, or the first check that fails. -/
def check (d : Declaration) : Except Diagnostic Definition :=
  let directive := d.directive
  match d.property? directive.kindProperty with
  | none => .error (.kindPropertyMissing directive.kindProperty directive.location)
  | some kind =>
    match d.property? directive.extrasProperty with
    | none => .error (.extrasPropertyMissing directive.extrasProperty directive.location)
    | some extras =>
      match kind.type.enum? with
      | none => .error (.kindPropertyNoEnum kind.name kind.type.display kind.location)
      | some enum => .ok
        { namespaceName := d.namespaceName
          typeName := d.typeName
          kindProperty := kind.name
          extrasProperty := extras.name
          extrasOptional := extras.type.isOptional
          enum
          members := enum.members
          directiveLocation := directive.location }

def analyze (d : Declaration) : Analysis :=
  match d.check with
  | .ok definition => ⟨d.id, some definition, []⟩
  | .error diagnostic => ⟨d.id, none, [diagnostic]⟩

end Declaration
end InlineIcons
