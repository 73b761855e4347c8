import InlineIcons.CodeWriter
import InlineIcons.Declaration
import InlineIcons.Text.SnakeCase

/-!
Generated source files: their names and the options that say which names of the consumer's rendering
interface they use.
-/
namespace InlineIcons

structure SourceUnit where
  hintName : String
  source : String
  deriving DecidableEq, Repr, Inhabited

/-- Paths into the consumer's rendering interface. -/
structure EmitOptions where
  componentTrait : String
  builderType : String
  renderMethod : String
  deriving DecidableEq, Repr

namespace EmitOptions

def standard : EmitOptions :=
  ⟨"crate::component::Component", "crate::component::RenderTreeBuilder", "build_render_tree"⟩

instance : Inhabited EmitOptions := ⟨standard⟩

def toJson (o : EmitOptions) : Json :=
  .obj [("component_trait", .str o.componentTrait), ("builder_type", .str o.builderType),
    ("render_method", .str o.renderMethod)]

end EmitOptions

structure CatalogOptions where
  enumName : String
  deriving DecidableEq, Repr

def CatalogOptions.toJson (o : CatalogOptions) : Json := .obj [("enum_name", .str o.enumName)]

namespace SourceUnit

def header : String := "// <auto-generated/>"

/-- The ending that marks a generated file. -/
def suffix : String := ".g.rs"

def directiveHint : String := "generate_svg_attribute.g.rs"

def indexHint : String := "svg_inline.g.rs"

def pathParts (cs : List Char) : List (List Char) := pathPartsFrom [] cs
where
  pathPartsFrom (part : List Char) : List Char → List (List Char)
    | [] => [part]
    | ':' :: ':' :: rest => part :: pathPartsFrom [] rest
    | c :: rest => pathPartsFrom (part ++ [c]) rest

def definitionHint (id : DefinitionId) : String :=
  "__".intercalate ((pathParts id.text.toList).map fun p => Text.snakeCase (String.ofList p)) ++ suffix

def catalogHint (enumName : String) : String := Text.snakeCase enumName ++ suffix

end SourceUnit
end InlineIcons
