import InlineIcons.Analysis
import InlineIcons.Assets
import InlineIcons.Literal
import InlineIcons.SourceUnit.Basic

/-!
The unit of a definition: an implementation of the render method that tells the members of the
definition's enum apart and draws the icon of each. A member without an icon has no arm and is
reported.
-/
namespace InlineIcons

/-- What generation gives for one definition; a definition that fails its check has no source. -/
structure GenerationResult where
  id : DefinitionId
  hintName : String
  source : Option String
  diagnostics : List Diagnostic
  deriving DecidableEq, Repr

namespace GenerationResult

def unit? (r : GenerationResult) : Option SourceUnit := r.source.map (⟨r.hintName, ·⟩)

end GenerationResult

namespace Definition

/-- The extra attribute that becomes an element of its own. -/
def titleKey : String := Literal.quote "title"

def extrasSteps : List Step :=
  [.scope "for (name, value) in extras.iter()"
    [.scope ("if *name != " ++ titleKey)
      [.line "builder.add_attribute(name, value);"]],
   .scope ("if let Some(title) = extras.get(" ++ titleKey ++ ")")
    [.line ("builder.open_element(" ++ titleKey ++ ");"),
     .line "builder.add_content(title);",
     .line "builder.close_element();"]]

def attributeStep (pair : String × String) : Step :=
  .line ("builder.add_attribute(" ++ Literal.quote pair.1 ++ ", " ++
    Literal.quote pair.2 ++ ");")

def armSteps (d : Definition) (a : Asset) : List Step :=
  let extras := "self." ++ d.extrasProperty
  .line "builder.open_element(\"svg\");" :: a.attributes.map attributeStep ++
    (if d.extrasOptional then [.scope ("if let Some(extras) = &" ++ extras) extrasSteps]
      else .line ("let extras = &" ++ extras ++ ";") :: extrasSteps) ++
    [.line ("builder.add_markup_content(" ++ Literal.quote a.body ++ ");"),
     .line "builder.close_element();"]

def typePath (d : Definition) : String := cratePath d.namespaceName d.typeName

/-- The arms of the members that have an icon, in the members' order. -/
def arms (d : Definition) (index : AssetIndex) : List Step :=
  d.members.filterMap fun member =>
    (index.get? member).map fun a =>
      .scope (d.enum.qualifiedPath ++ "::" ++ member ++ " =>") (d.armSteps a)

def missing (d : Definition) (index : AssetIndex) : List Diagnostic :=
  (d.members.filter fun member => (index.get? member).isNone).map fun member =>
    .assetMissing member (Identifier.suggestedFile member) d.directiveLocation

def steps (d : Definition) (index : AssetIndex) (options : EmitOptions) : List Step :=
  [.line SourceUnit.header,
   .line ("// Inline SVG render dispatch for `" ++ d.typePath ++ "`."),
   .emptyLine,
   .scope ("impl " ++ options.componentTrait ++ " for " ++ d.typePath)
    [.scope ("fn " ++ options.renderMethod ++ "(&self, builder: &mut " ++ options.builderType ++ ")")
      [.scope ("match self." ++ d.kindProperty) (d.arms index)]]]

def generate (d : Definition) (index : AssetIndex) (options : EmitOptions) : GenerationResult :=
  { id := d.id
    hintName := SourceUnit.definitionHint d.id
    source := some (CodeWriter.write (d.steps index options))
    diagnostics := d.missing index }

end Definition

namespace Analysis

/-- A definition that fails its check is reported and has no unit. -/
def generate (a : Analysis) (index : AssetIndex) (options : EmitOptions) : GenerationResult :=
  match a.definition with
  | some d => d.generate index options
  | none => ⟨a.id, SourceUnit.definitionHint a.id, none, a.diagnostics⟩

end Analysis
end InlineIcons
