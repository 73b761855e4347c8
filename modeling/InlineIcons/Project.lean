import InlineIcons.Failure
import InlineIcons.Source.EnumTable

/-!
A project: its files are scanned and read, generation runs on what they hold, and the units are
written or compared with what is there. A project keeps its pipeline, so that repeated runs reuse
what has not changed.
-/
namespace InlineIcons

structure ProjectInputs where
  inputs : Inputs
  parseErrors : List ParseError
  /-- The number of source files. -/
  sources : Nat

structure Generated where
  report : RunReport
  parseErrors : List ParseError
  assets : Nat
  sources : Nat
  definitions : Nat

def Generated.hasWarnings (g : Generated) : Bool :=
  !g.parseErrors.isEmpty || g.report.hasWarnings

structure Summary where
  assets : Nat
  sources : Nat
  definitions : Nat
  files : List WriteResult
  diagnostics : List Diagnostic
  parseErrors : List ParseError
  stats : RunStats

namespace Summary

def of (g : Generated) (files : List WriteResult) : Summary :=
  ⟨g.assets, g.sources, g.definitions, files, g.report.diagnostics, g.parseErrors, g.report.stats⟩

def file (r : WriteResult) : Json :=
  .obj [("path", .str r.path.text), ("status", .str r.status), ("bytes", .num r.bytes)]

def diagnostic (d : Diagnostic) : Json :=
  .obj [("code", .str d.code.id), ("severity", .str "warning"), ("message", .str d.message),
    ("args", .ofTexts d.args), ("location", d.location.toJson)]

def toJson (s : Summary) : Json :=
  .obj [("assets", .num s.assets), ("sources", .num s.sources),
    ("definitions", .num s.definitions), ("files", .arr (s.files.map file)),
    ("diagnostics", .arr (s.diagnostics.map diagnostic)),
    ("parse_errors", .ofTexts (s.parseErrors.map ParseError.message)),
    ("stats", s.stats.toJson)]

end Summary

structure Project where
  settings : Settings
  pipeline : Pipeline

namespace Project

def new (settings : Settings) : Project := ⟨settings, .new settings.pipelineOptions⟩

def sourceScan (s : Settings) : Except ScanError Scan :=
  match s.input.filter with
  | some pattern => (Scan.sources s.input.sources).filtered pattern
  | none => .ok (Scan.sources s.input.sources)

/-- Reads the files that the settings name; there may be none. -/
def scan (s : Settings) (t : FileTree) : Except ScanError (List TextFile × List TextFile) := do
  let assets ← (Scan.withExtension s.input.assets s.input.assetExtension).filesOrNone t
  let sources ← (← sourceScan s).filesOrNone t
  return (assets, sources)

def collect (s : Settings) (t : FileTree) : Except ScanError ProjectInputs := do
  let (assets, sources) ← scan s t
  let found := Source.CrateFindings.ofFiles s.input.directive sources
  return {
    inputs := ⟨assets.map fun f => ⟨f.path, f.text⟩, found.declarations⟩
    parseErrors := found.errors
    sources := sources.length }

/-- One run on the files as they are. -/
def generate (p : Project) (t : FileTree) : Except Failure Generated × Project :=
  match collect p.settings t with
  | .error e => (.error (.scan e), p)
  | .ok found =>
    match p.pipeline.run found.inputs with
    | (.error e, pipeline) => (.error (.generate e), { p with pipeline })
    | (.ok report, pipeline) =>
      (.ok { report, parseErrors := found.parseErrors, assets := found.inputs.assets.length,
             sources := found.sources, definitions := found.inputs.declarations.length },
        { p with pipeline })

def write (s : Settings) (t : FileTree) (dry : Bool) (g : Generated) :
    FileTree × Except Failure Summary :=
  match t.writeOutput dry s.output.dir g.report.units with
  | (t, .ok files) => (t, .ok (.of g files))
  | (t, .error e) => (t, .error (.write e))

def generateAndWrite (p : Project) (t : FileTree) (dry : Bool) :
    FileTree × Except Failure Summary × Project :=
  match p.generate t with
  | (.error e, p) => (t, .error e, p)
  | (.ok g, p) =>
    let (t, outcome) := write p.settings t dry g
    (t, outcome, p)

/-- The paths that differ from what a fresh run generates. -/
def validate (s : Settings) (t : FileTree) : Except Failure (List Path) := do
  let g ← ((new s).generate t).1
  return t.outOfDate s.output.dir g.report.units

end Project
end InlineIcons
