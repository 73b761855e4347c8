import InlineIcons.Assets
import InlineIcons.Literal
import InlineIcons.SourceUnit.Basic

/-!
The catalog unit: an enum with one member per icon, and for each member its name and its markup.
-/
namespace InlineIcons.SourceUnit

/-- The members of the enum; the first one is numbered, and so the others are. -/
def variantSteps : List String → List Step
  | [] => []
  | first :: rest => .line (first ++ " = 1,") :: rest.map fun identifier => .line (identifier ++ ",")

/-- One arm per icon, each giving a text. -/
def textArms (enumName : String) (assets : List Asset) (text : Asset → String) : List Step :=
  assets.map fun a =>
    .line (enumName ++ "::" ++ a.identifier ++ " => " ++ Literal.quote (text a) ++ ",")

def catalogSteps (index : AssetIndex) (enumName : String) : List Step :=
  [.line header,
   .emptyLine,
   .line "/// Every SVG asset known to the generator.",
   .line "#[derive(Debug, Clone, Copy, PartialEq, Eq, Hash)]",
   .scope ("pub enum " ++ enumName) (variantSteps index.identifiers),
   .emptyLine,
   .scope ("impl " ++ enumName)
    [.line ("pub const ALL: &'static [" ++ enumName ++ "] = &["),
     .indented (index.identifiers.map fun identifier => .line (enumName ++ "::" ++ identifier ++ ",")),
     .line "];",
     .emptyLine,
     .scope "pub const fn name(self) -> &'static str"
      [.scope "match self" (textArms enumName index.entries Asset.identifier)],
     .emptyLine,
     .scope "pub const fn markup(self) -> &'static str"
      [.scope "match self" (textArms enumName index.entries Asset.markup)]]]

def catalog (index : AssetIndex) (options : CatalogOptions) : SourceUnit :=
  ⟨catalogHint options.enumName, CodeWriter.write (catalogSteps index options.enumName)⟩

end InlineIcons.SourceUnit
