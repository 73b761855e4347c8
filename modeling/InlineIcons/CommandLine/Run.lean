import InlineIcons.CommandLine.Command
import InlineIcons.Project

/-!
Running a command on a tree of files: what is printed, how the run ends, and the files afterwards.
-/
namespace InlineIcons.CommandLine

/-- A project whose files are watched. -/
structure Session where
  project : Project
  dryRun : Bool
  format : OutputFormat

inductive Ending where
  | code (n : Nat)
  /-- The run goes on with every change. -/
  | watching (s : Session)

structure Outcome where
  ending : Ending
  out : String
  err : String
  tree : FileTree

def line (s : String) : String := s ++ "\n"

def lines (xs : List String) : String := String.join (xs.map line)

def rule : String := String.ofList (List.replicate 60 '─')

namespace Report

def counts (s : Summary) : String :=
  s!"  Found {s.assets} asset(s), {s.sources} source file(s), {s.definitions} component(s)"

def parseErrors (s : Summary) : List String :=
  if s.parseErrors.isEmpty then []
  else s!"Warning: {s.parseErrors.length} parse error(s):" ::
    s.parseErrors.map fun e => "  " ++ e.message

def fileLines : WriteResult → List String
  | .written path bytes => [s!"✓ Written {bytes} bytes to {path}"]
  | .removed path => ["✓ Removed " ++ path.text]
  | .unchanged path => ["  unchanged " ++ path.text]
  | .dryRun path content =>
    if content.isEmpty then ["[dry-run] Would remove " ++ path.text]
    else ["[dry-run] Would write to " ++ path.text ++ ":", rule, content, rule]

def human (s : Summary) : String :=
  lines (counts s :: (parseErrors s ++ (s.diagnostics.map fun d => "Warning: " ++ d.line) ++
    s.files.flatMap fileLines))

def summary (format : OutputFormat) (s : Summary) : String :=
  match format with
  | .human => human s
  | .json => line s.toJson.pretty

def outdated (format : OutputFormat) (paths : List Path) : String :=
  match format with
  | .json => line (Json.compact (.obj [("outdated", .ofTexts (paths.map Path.text)),
      ("up_to_date", .bool paths.isEmpty)]))
  | .human =>
    if paths.isEmpty then line "✓ Generated files are up-to-date"
    else lines (["✗ Generated files are out of date"] ++ (paths.map fun p => "  " ++ p.text) ++
      ["  Run 'svg-inline generate' to update"])

/-- What is going on, which only readers want to know. -/
def progress (format : OutputFormat) (s : String) : String :=
  match format with
  | .human => line s
  | .json => ""

end Report

namespace Session

/-- One generation, with what it prints. -/
def generate (s : Session) (t : FileTree) : FileTree × String × Except Failure Unit × Session :=
  let begins := Report.progress s.format "Scanning assets and sources..."
  match s.project.generateAndWrite t s.dryRun with
  | (t, .ok summary, project) =>
    (t, begins ++ Report.summary s.format summary, .ok (), { s with project })
  | (t, .error e, project) => (t, begins, .error e, { s with project })

def settings (s : Session) : Settings := s.project.settings

def watcher (s : Session) : Watcher :=
  (Watcher.ofRoot s.settings.input.sources).addRoot s.settings.input.assets

/-- Whether a change of a file counts. -/
def concerns (s : Session) (p : Path) : Bool :=
  p.hasExtension "rs" || p.hasExtension s.settings.input.assetExtension

def watchBanner (s : Session) : String :=
  lines ["Starting watch mode...", "  Watching: " ++ s.settings.input.assets.text,
    "  Watching: " ++ s.settings.input.sources.text, "  Press Ctrl+C to stop", ""]

def waiting : String := lines ["", "Watching for changes..."]

/-- What a change leads to. A generation that fails is reported and the session goes on. -/
def onEvent (s : Session) (t : FileTree) : WatchEvent → FileTree × String × Session
  | .failed message => (t, line ("Watch error: " ++ message), s)
  | .modified path | .deleted path =>
    let begins := lines ["", "File changed: " ++ path.text]
    match s.generate t with
    | (t, out, .ok (), s) => (t, begins ++ out ++ waiting, s)
    | (t, out, .error e, s) =>
      (t, begins ++ out ++ line ("Generation error: " ++ e.message) ++ waiting, s)

end Session

namespace Outcome

def success (t : FileTree) (out : String) : Outcome := ⟨.code 0, out, "", t⟩

/-- A run that ends with a failure; one that found a fault in the files has a code of its own. -/
def failure (t : FileTree) (out : String) (e : Failure) : Outcome :=
  ⟨.code (if e.isValidation then 2 else 1), out, line ("Error: " ++ e.message), t⟩

def refused (t : FileTree) : Refusal → Outcome
  | .usage e => ⟨.code 2, "", line ("error: " ++ e.message), t⟩
  | .help text => success t text
  | .version => success t Command.versionText
  | .nothing => ⟨.code 2, "", Command.rootHelp false, t⟩

end Outcome

def runGenerate (t : FileTree) (format : OutputFormat) (o : GenerateOptions) : Outcome :=
  match Settings.resolve t o.config o.overrides with
  | .error e => .failure t "" (.settings e)
  | .ok settings =>
    let s : Session := ⟨.new settings, o.dryRun, format⟩
    let banner := if o.watch then s.watchBanner else ""
    match s.generate t with
    | (t, out, .error e, _) => .failure t (banner ++ out) e
    | (t, out, .ok (), s) =>
      if !o.watch then .success t out
      else match s.watcher.start t with
        | .error e => .failure t (banner ++ out) (.watch e)
        | .ok () => ⟨.watching s, banner ++ out ++ Session.waiting, "", t⟩

/-- Writes a settings file, over one that is there only if forced to. -/
def runInit (t : FileTree) (output : Path) (force : Bool) : Outcome :=
  if t.has output && !force then
    let out := lines ["Error: Configuration file already exists: " ++ output.text,
      "  Use --force to overwrite"]
    .failure t out .settingsExist
  else match t.write output (Text.utf8 Settings.fileText) with
    | .ok t => .success t (line ("✓ Created configuration file: " ++ output.text))
    | .error fault => .failure t "" (.file fault)

def runValidate (t : FileTree) (format : OutputFormat) (o : Overrides) (config : Option Path) :
    Outcome :=
  match Settings.resolve t config o with
  | .error e => .failure t "" (.settings e)
  | .ok settings =>
    let begins := Report.progress format "Validating generated files..."
    match Project.validate settings t with
    | .error e => .failure t begins e
    | .ok paths =>
      let out := begins ++ Report.outdated format paths
      if paths.isEmpty then .success t out else .failure t out (.outdated paths.length)

def Invocation.run (i : Invocation) (t : FileTree) : Outcome :=
  match i.command with
  | .generate o => runGenerate t i.format o
  | .init output force => runInit t output force
  | .validate o config => runValidate t i.format o config

/-- Runs the program with arguments. -/
def run (t : FileTree) (args : List String) : Outcome :=
  match Command.ofArgs args with
  | .ok i => i.run t
  | .error r => .refused t r

end InlineIcons.CommandLine
