import InlineIcons.Literal
import InlineIcons.SourceUnit.Basic

/-!
The units that hang on no definition: the directive's type, which never changes, and the index,
which includes every other unit.
-/
namespace InlineIcons.SourceUnit

def getterSteps (property : String) : Step :=
  .scope ("pub const fn " ++ property ++ "(&self) -> &'static str") [.line ("self." ++ property)]

def directiveSteps : List Step :=
  [.line header,
   .emptyLine,
   .line "/// Requests generated inline SVG rendering for a component.",
   .line "///",
   .line "/// `kind_property` names the enum field that selects the asset;",
   .line "/// `extras_property` names the field holding extra attributes.",
   .line "#[derive(Debug, Clone, Copy, PartialEq, Eq)]",
   .scope "pub struct GenerateSvgAttribute"
    [.line "kind_property: &'static str,",
     .line "extras_property: &'static str,"],
   .emptyLine,
   .scope "impl GenerateSvgAttribute"
    [.scope "pub const fn new(kind_property: &'static str, extras_property: &'static str) -> Self"
      [.scope "Self" [.line "kind_property,", .line "extras_property,"]],
     .emptyLine,
     getterSteps "kind_property",
     .emptyLine,
     getterSteps "extras_property"]]

def directive : SourceUnit := ⟨directiveHint, CodeWriter.write directiveSteps⟩

def indexSteps (hints : List String) : List Step :=
  .line header :: .emptyLine ::
    hints.map fun hint => .line ("include!(" ++ Literal.quote hint ++ ");")

def index (hints : List String) : SourceUnit := ⟨indexHint, CodeWriter.write (indexSteps hints)⟩

end InlineIcons.SourceUnit
