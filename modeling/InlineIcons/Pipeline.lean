import InlineIcons.Memo
import InlineIcons.SourceUnit.Catalog
import InlineIcons.SourceUnit.Dispatch
import InlineIcons.SourceUnit.Fixed

/-!
Generation in one run: icons are loaded, declarations checked, units written and put together. A
pipeline keeps memo tables, so that a later run computes only what has changed; the outcome of a run
does not depend on them.
-/
namespace InlineIcons

structure AssetFile where
  path : Path
  content : String
  deriving DecidableEq, Repr, Inhabited

structure Inputs where
  assets : List AssetFile
  declarations : List Declaration
  deriving Repr, Inhabited

structure PipelineOptions where
  assetExtension : String
  strictAssets : Bool
  catalog : Option CatalogOptions
  emit : EmitOptions
  deriving DecidableEq, Repr

namespace PipelineOptions

def standard : PipelineOptions := ⟨"svg", false, none, .standard⟩

instance : Inhabited PipelineOptions := ⟨standard⟩

def toJson (o : PipelineOptions) : Json :=
  .obj [("asset_extension", .str o.assetExtension), ("strict_assets", .bool o.strictAssets),
    ("catalog", .ofOption CatalogOptions.toJson o.catalog), ("emit", o.emit.toJson)]

end PipelineOptions

structure RunStats where
  assets : MemoStats
  definitions : MemoStats
  results : MemoStats
  deriving DecidableEq, Repr, Inhabited

namespace RunStats

def toJson (s : RunStats) : Json :=
  .obj [("assets", s.assets.toJson), ("definitions", s.definitions.toJson),
    ("results", s.results.toJson)]

def fullyReused (s : RunStats) : Bool :=
  s.assets.computed = 0 && s.definitions.computed = 0 && s.results.computed = 0

end RunStats

structure RunReport where
  results : List GenerationResult
  units : List SourceUnit
  diagnostics : List Diagnostic
  stats : RunStats
  deriving DecidableEq, Repr

namespace RunReport

def result? (r : RunReport) (id : DefinitionId) : Option GenerationResult :=
  r.results.find? (·.id = id)

def hasWarnings (r : RunReport) : Bool := !r.diagnostics.isEmpty

end RunReport

/-- Drops elements that agree with the one kept before them. -/
def dropRepeats (same : α → α → Bool) : List α → List α
  | [] => []
  | [a] => [a]
  | a :: b :: rest =>
    if same a b then dropRepeats same (a :: rest) else a :: dropRepeats same (b :: rest)

namespace AssetFile

def precedes (a b : AssetFile) : Bool := (a.path.cmp b.path).isLE

/-- The files with an extension, in path order and one per path: the earliest of them. -/
def select (extension : String) (files : List AssetFile) : List AssetFile :=
  let chosen := files.filter fun f => f.path.hasExtension extension
  dropRepeats (fun a b => a.path.same b.path) (chosen.mergeSort precedes)

def fingerprint (f : AssetFile) : Fingerprint := .ofParts [.text f.path.text, .text f.content]

def item (f : AssetFile) : Memo.Item (List Path.Component) AssetFile :=
  ⟨f.path.components, f.fingerprint, f⟩

def load (f : AssetFile) : Except AssetError Asset := Asset.load f.path f.content

end AssetFile

structure Provider where
  asset : Asset
  path : Path
  fingerprint : Fingerprint
  deriving Repr

/-- The icons of a run: one provider per identifier, in path order, and the files that were skipped. -/
structure Collected where
  providers : List Provider
  diagnostics : List Diagnostic
  deriving Repr

namespace Collected

def empty : Collected := ⟨[], []⟩

def provider? (c : Collected) (identifier : String) : Option Provider :=
  c.providers.find? (·.asset.identifier == identifier)

def skip (c : Collected) (path : Path) (reason : String) : Collected :=
  { c with diagnostics := c.diagnostics ++ [.assetSkipped path reason] }

def duplicateReason (identifier : String) (owner : Path) : String :=
  "identifier '" ++ identifier ++ "' is already provided by " ++ owner.text

/-- The first file in path order provides an identifier; later ones are skipped. -/
def addAsset (c : Collected) (file : AssetFile) (asset : Asset) : Collected :=
  match c.provider? asset.identifier with
  | some owner => c.skip file.path (duplicateReason asset.identifier owner.path)
  | none => { c with providers := c.providers ++ [⟨asset, file.path, file.fingerprint⟩] }

/-- Takes the loaded files in order; under strict handling the first that did not load ends the
run. -/
def addAll (strict : Bool) (c : Collected) :
    List (AssetFile × Except AssetError Asset) → Except AssetError Collected
  | [] => .ok c
  | (file, .ok asset) :: rest => (c.addAsset file asset).addAll strict rest
  | (file, .error e) :: rest =>
    if strict then .error e else (c.skip file.path e.message).addAll strict rest

def index (c : Collected) : AssetIndex := .ofList (c.providers.map Provider.asset)

def fingerprint? (c : Collected) (identifier : String) : Option Fingerprint :=
  (c.provider? identifier).map Provider.fingerprint

end Collected

namespace Declaration

def precedes (a b : Declaration) : Bool := !(b.id.text < a.id.text)

/-- The declarations in the order of their identities and one per identity: the earliest of them. -/
def select (declarations : List Declaration) : List Declaration :=
  dropRepeats (fun a b => a.id = b.id) (declarations.mergeSort precedes)

def fingerprint (d : Declaration) : Fingerprint := .ofValue d.toJson

def item (d : Declaration) : Memo.Item DefinitionId Declaration := ⟨d.id, d.fingerprint, d⟩

end Declaration

namespace Analysis

/-- A result depends on the analysis, the options, and for each member on its icon or on there being
none. -/
def resultParts (a : Analysis) (collected : Collected) (emit : EmitOptions) :
    List Fingerprint.Part :=
  let members := match a.definition with
    | some d => d.members
    | none => []
  .value a.toJson :: .value emit.toJson :: members.flatMap fun member =>
    [.text member,
      match collected.fingerprint? member with
      | some f => .fingerprint f
      | none => .bytes []]

def resultItem (a : Analysis) (collected : Collected) (emit : EmitOptions) :
    Memo.Item DefinitionId Analysis :=
  ⟨a.id, .ofParts (a.resultParts collected emit), a⟩

end Analysis

/-- The catalog depends on its options and on the icon behind each identifier. -/
def catalogParts (options : CatalogOptions) (collected : Collected) : List Fingerprint.Part :=
  .value options.toJson :: collected.index.identifiers.flatMap fun identifier =>
    .text identifier :: ((collected.fingerprint? identifier).map Fingerprint.Part.fingerprint).toList

namespace HintNames

def reserved (catalog : Option CatalogOptions) : List String :=
  [SourceUnit.directiveHint, SourceUnit.indexHint] ++
    (catalog.map fun o => SourceUnit.catalogHint o.enumName).toList

def numbered (name : String) (n : Nat) : String :=
  String.ofList (name.toList.take (name.toList.length - 5)) ++ "_" ++ toString n ++ SourceUnit.suffix

/-- The numbered form with the least number from two on that is not taken. Among as many numbers as
there are names taken, and one more, some form is free. -/
def free (taken : List String) (name : String) : String :=
  (((List.range (taken.length + 1)).map fun i => numbered name (i + 2)).find?
    (!taken.contains ·)).getD name

/-- Gives names in order: a name that is not reserved belongs to the first result that claims it,
all others get a free numbered form. -/
def assignFrom (reserved taken claimed : List String) :
    List GenerationResult → List GenerationResult
  | [] => []
  | r :: rest =>
    if r.source.isNone then r :: assignFrom reserved taken claimed rest
    else if !reserved.contains r.hintName && !claimed.contains r.hintName then
      r :: assignFrom reserved taken (r.hintName :: claimed) rest
    else
      let name := free taken r.hintName
      let claimed := if reserved.contains r.hintName then claimed else r.hintName :: claimed
      { r with hintName := name } :: assignFrom reserved (name :: taken) claimed rest

def assign (catalog : Option CatalogOptions) (results : List GenerationResult) :
    List GenerationResult :=
  let reserved := reserved catalog
  let used := (results.filter (·.source.isSome)).map GenerationResult.hintName
  assignFrom reserved (reserved ++ used) [] results

end HintNames

structure Pipeline where
  options : PipelineOptions
  assets : Memo (List Path.Component) (Except AssetError Asset)
  analyses : Memo DefinitionId Analysis
  results : Memo DefinitionId GenerationResult
  units : Memo String SourceUnit

namespace Pipeline

def new (options : PipelineOptions) : Pipeline := ⟨options, .empty, .empty, .empty, .empty⟩

/-- The fixed units with the table of units afterwards. -/
def fixedUnits (p : Pipeline) (collected : Collected) : List SourceUnit × Memo String SourceUnit :=
  let (directive, units, _) := p.units.getOrCompute .zero "directive"
    (.ofBytes (Text.utf8 "directive")) fun _ => SourceUnit.directive
  match p.options.catalog with
  | none => ([directive], units)
  | some options =>
    let (catalog, units, _) := units.getOrCompute .zero "catalog"
      (.ofParts (catalogParts options collected)) fun _ => SourceUnit.catalog collected.index options
    ([directive, catalog], units)

def unitPrecedes (a b : SourceUnit) : Bool := !(b.hintName < a.hintName)

/-- The fixed units, the definitions' units by name, and the index of all of them. -/
def assemble (fixed : List SourceUnit) (results : List GenerationResult) : List SourceUnit :=
  let units := fixed ++ (results.filterMap GenerationResult.unit?).mergeSort unitPrecedes
  units ++ [SourceUnit.index (units.map SourceUnit.hintName)]

/-- One run. A run that fails leaves the icons it has read in their table and touches no other. -/
def run (p : Pipeline) (inputs : Inputs) : Except AssetError RunReport × Pipeline :=
  let files := AssetFile.select p.options.assetExtension inputs.assets
  let (loaded, assets, assetStats) := p.assets.stage AssetFile.load (files.map AssetFile.item)
  match Collected.empty.addAll p.options.strictAssets (files.zip loaded) with
  | .error e => (.error e, { p with assets })
  | .ok collected =>
    let declarations := Declaration.select inputs.declarations
    let (analyzed, analyses, definitionStats) :=
      p.analyses.stage Declaration.analyze (declarations.map Declaration.item)
    let emit := p.options.emit
    let (generated, results, resultStats) :=
      p.results.stage (·.generate collected.index emit)
        (analyzed.map (·.resultItem collected emit))
    let named := HintNames.assign p.options.catalog generated
    let (fixed, units) := p.fixedUnits collected
    let report : RunReport :=
      { results := named
        units := assemble fixed named
        diagnostics := collected.diagnostics ++ named.flatMap GenerationResult.diagnostics
        stats := ⟨assetStats, definitionStats, resultStats⟩ }
    (.ok report, { p with assets, analyses, results, units })

end Pipeline
end InlineIcons
