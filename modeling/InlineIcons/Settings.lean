import InlineIcons.FileTree.Basic
import InlineIcons.Pipeline
import InlineIcons.Source.DirectiveArgs
import InlineIcons.Toml.Document

/-!
Settings: where the inputs are, where the output goes, and what is generated. They come from a TOML
file, in which every key may be left out, and can be overridden one by one. Values that generation
could not work with are refused.
-/
namespace InlineIcons

structure InputSettings where
  assets : Path
  /-- The source root of the crate; module paths begin there. -/
  sources : Path
  assetExtension : String
  /-- The attribute that marks a component. -/
  directive : String
  /-- A pattern for the paths of sources below their root. -/
  filter : Option String
  deriving DecidableEq, Repr

structure OutputSettings where
  dir : Path
  emit : EmitOptions
  deriving DecidableEq, Repr

structure GenerationSettings where
  strictAssets : Bool
  /-- Whether an enum of all icons is generated. -/
  catalog : Bool
  catalogEnum : String
  deriving DecidableEq, Repr

structure Settings where
  input : InputSettings
  output : OutputSettings
  generation : GenerationSettings
  deriving DecidableEq, Repr

inductive SettingFault where
  | extension (value : String)
  | identifier (key value : String)
  | path (key value : String)
  deriving DecidableEq, Repr

namespace SettingFault

def key : SettingFault → String
  | extension _ => "input.asset_extension"
  | identifier key _ | path key _ => key

def reason : SettingFault → String
  | extension value => "expected an extension without a leading dot, got '" ++ value ++ "'"
  | identifier _ value => "'" ++ value ++ "' is not a Rust identifier"
  | path _ value => "'" ++ value ++ "' is not a Rust path"

end SettingFault

inductive SettingsError where
  | missing (file : Path)
  /-- The file is no TOML, or a value in it is of the wrong kind. -/
  | malformed (file : Path)
  | unreadable (file : Path) (fault : FileFault)
  | refused (fault : SettingFault)
  deriving DecidableEq, Repr

def SettingsError.message : SettingsError → String
  | missing file => "Configuration file not found: " ++ file.text
  | malformed file => "Invalid TOML in " ++ file.text
  | unreadable file fault => "Failed to read config " ++ file.text ++ ": " ++ fault.message
  | refused fault =>
    "Invalid configuration value for '" ++ fault.key ++ "': " ++ fault.reason

/-- A section of a file, whose values are found by key or, in an array, by their place. -/
inductive Section where
  | absent
  | table (fields : List (String × Toml.Value))
  | array (items : List Toml.Value)

namespace Section

def ofValue? : Option Toml.Value → Option Section
  | none => some absent
  | some (.table fields) => some (table fields)
  | some (.array items) => some (array items)
  | some _ => none

def get (s : Section) (place : Nat) (key : String) : Option Toml.Value :=
  match s with
  | absent => none
  | table fields => fields.lookup key
  | array items => items[place]?

def text? (s : Section) (place : Nat) (key : String) (standard : String) : Option String :=
  match s.get place key with
  | none => some standard
  | some (.text value) => some value
  | some _ => none

def flag? (s : Section) (place : Nat) (key : String) (standard : Bool) : Option Bool :=
  match s.get place key with
  | none => some standard
  | some (.flag value) => some value
  | some _ => none

/-- A text that is not there unless it is given. -/
def given? (s : Section) (place : Nat) (key : String) : Option (Option String) :=
  match s.get place key with
  | none => some none
  | some (.text value) => some (some value)
  | some _ => none

end Section

namespace InputSettings

def standard : InputSettings := ⟨⟨"./assets"⟩, ⟨"./src"⟩, "svg", "generate_svg", none⟩

def ofSection? (s : Section) : Option InputSettings := do
  return {
    assets := ⟨← s.text? 0 "assets" standard.assets.text⟩
    sources := ⟨← s.text? 1 "sources" standard.sources.text⟩
    assetExtension := ← s.text? 2 "asset_extension" standard.assetExtension
    directive := ← s.text? 3 "directive" standard.directive
    filter := ← s.given? 4 "filter" }

end InputSettings

namespace OutputSettings

def standard : OutputSettings := ⟨⟨"./generated"⟩, .standard⟩

def ofSection? (s : Section) : Option OutputSettings := do
  return {
    dir := ⟨← s.text? 0 "dir" standard.dir.text⟩
    emit := {
      componentTrait := ← s.text? 1 "component_trait" standard.emit.componentTrait
      builderType := ← s.text? 2 "builder_type" standard.emit.builderType
      renderMethod := ← s.text? 3 "render_method" standard.emit.renderMethod } }

end OutputSettings

namespace GenerationSettings

def standard : GenerationSettings := ⟨false, false, "IconType"⟩

def ofSection? (s : Section) : Option GenerationSettings := do
  return {
    strictAssets := ← s.flag? 0 "strict_assets" standard.strictAssets
    catalog := ← s.flag? 1 "catalog" standard.catalog
    catalogEnum := ← s.text? 2 "catalog_enum" standard.catalogEnum }

end GenerationSettings

structure Overrides where
  assets : Option Path
  sources : Option Path
  filter : Option String
  output : Option Path
  strictAssets : Option Bool
  catalog : Option Bool
  deriving DecidableEq, Repr

def Overrides.none : Overrides := ⟨.none, .none, .none, .none, .none, .none⟩

namespace Settings

def standard : Settings := ⟨.standard, .standard, .standard⟩

instance : Inhabited Settings := ⟨standard⟩

def pipelineOptions (s : Settings) : PipelineOptions where
  assetExtension := s.input.assetExtension
  strictAssets := s.generation.strictAssets
  catalog := if s.generation.catalog then some ⟨s.generation.catalogEnum⟩ else none
  emit := s.output.emit

/-- The settings of a file's text. Keys that mean nothing do not count. -/
def ofToml? (text : String) : Option Settings := do
  let fields ← Toml.ofText? text
  let part := fun (name : String) => Section.ofValue? (fields.lookup name)
  return {
    input := ← InputSettings.ofSection? (← part "input")
    output := ← OutputSettings.ofSection? (← part "output")
    generation := ← GenerationSettings.ofSection? (← part "generation") }

/-- Whether a text is a path of names, generic arguments allowed. -/
def isPath (text : String) : Bool :=
  let reader : Source.Reader Unit := do
    discard (Source.TypeGrammar.ofTokens (← Source.Reader.tokens)).path
  (reader.runText text.toList).isOk

def checkExtension (value : String) : Except SettingFault Unit :=
  if value.isEmpty || value.toList.head? = some '.' then .error (.extension value) else .ok ()

def checkIdentifier (key value : String) : Except SettingFault Unit :=
  if Source.DirectiveArgs.isName value then .ok () else .error (.identifier key value)

def checkPath (key value : String) : Except SettingFault Unit :=
  if isPath value then .ok () else .error (.path key value)

/-- Refuses the first value that generation cannot work with. -/
def check (s : Settings) : Except SettingFault Unit := do
  checkExtension s.input.assetExtension
  checkIdentifier "input.directive" s.input.directive
  checkIdentifier "output.render_method" s.output.emit.renderMethod
  checkIdentifier "generation.catalog_enum" s.generation.catalogEnum
  checkPath "output.component_trait" s.output.emit.componentTrait
  checkPath "output.builder_type" s.output.emit.builderType

def override (s : Settings) (o : Overrides) : Settings where
  input := { s.input with
    assets := o.assets.getD s.input.assets
    sources := o.sources.getD s.input.sources
    filter := o.filter.or s.input.filter }
  output := { s.output with dir := o.output.getD s.output.dir }
  generation := { s.generation with
    strictAssets := o.strictAssets.getD s.generation.strictAssets
    catalog := o.catalog.getD s.generation.catalog }

def standardFile : Path := ⟨"svg-inline.toml"⟩

def checked (s : Settings) : Except SettingsError Settings := do
  s.check.mapError .refused
  return s

/-- The settings of a file, or the standard ones if no file is named and the usual one is missing. -/
def load (t : FileTree) (named : Option Path) : Except SettingsError Settings := do
  let file := named.getD standardFile
  if !t.has file then
    if named.isSome then throw (.missing file) else return standard
  let text ← (t.readText file).mapError (.unreadable file)
  match ofToml? text with
  | some s => s.checked
  | none => throw (.malformed file)

/-- The settings of a file with overrides. Both are checked: an override does not mend a file. -/
def resolve (t : FileTree) (named : Option Path) (o : Overrides) : Except SettingsError Settings := do
  ((← load t named).override o).checked

/-- A file with the standard settings and what they mean. -/
def fileText : String :=
"# svg-inline configuration file

[input]
# Directory containing the SVG assets (searched recursively)
assets = \"./assets\"

# Crate source root; module paths are derived relative to it
sources = \"./src\"

# Extension of asset files
asset_extension = \"svg\"

# Attribute marking component structs: #[generate_svg(kind, attributes)] from
# svg-inline-macros. Set this when the attribute is imported under another name.
directive = \"generate_svg\"

[output]
# Output directory for generated files; include `svg_inline.g.rs` from your crate
dir = \"./generated\"

# Rendering API the generated code targets
component_trait = \"crate::component::Component\"
builder_type = \"crate::component::RenderTreeBuilder\"
render_method = \"build_render_tree\"

[generation]
# Fail instead of skipping assets that are not well-formed XML
strict_assets = false

# Also generate an enum listing every asset with its inline markup
catalog = false
catalog_enum = \"IconType\"
"

end Settings
end InlineIcons
