import InlineIcons.CommandLine.Help
import InlineIcons.Settings

/-!
The commands of the program and their options.
-/
namespace InlineIcons.CommandLine

inductive OutputFormat where
  | human
  | json
  deriving DecidableEq, Repr, Inhabited

structure GenerateOptions where
  overrides : Overrides
  config : Option Path
  watch : Bool
  dryRun : Bool
  deriving DecidableEq, Repr

inductive Command where
  | generate (options : GenerateOptions)
  | init (output : Path) (force : Bool)
  | validate (overrides : Overrides) (config : Option Path)
  deriving DecidableEq, Repr

structure Invocation where
  format : OutputFormat
  command : Command
  deriving DecidableEq, Repr

/-- Why arguments name nothing to do. -/
inductive Refusal where
  | usage (e : UsageError)
  | help (text : String)
  | version
  /-- There are no arguments. -/
  | nothing
  deriving DecidableEq, Repr

namespace Command

def program : String := "svg-inline"

def versionText : String := program ++ " 0.1.0\n"

def about : String := "Inline SVG assets into Rust render code"

def verboseOption : OptionSpec :=
  ⟨some 'v', "verbose", .counted, "Increase log verbosity (-v debug, -vv trace)", none⟩

def formatOption : OptionSpec :=
  ⟨none, "format",
    .choice [("human", "Colored text for terminals"), ("json", "One JSON document on stdout")],
    "Output format", some "human"⟩

def helpOption : OptionSpec := ⟨some 'h', "help", .help, "", none⟩

def versionOption : OptionSpec := ⟨some 'V', "version", .version, "Print version", none⟩

def assetsOption : OptionSpec :=
  ⟨some 'a', "assets", .path, "Directory containing SVG assets", none⟩

def sourcesOption : OptionSpec :=
  ⟨some 's', "sources", .path, "Crate source root containing the component structs", none⟩

def configOption : OptionSpec := ⟨some 'c', "config", .path, "Configuration file path", none⟩

def flagOption (short : Option Char) (long about : String) : OptionSpec :=
  ⟨short, long, .flag, about, none⟩

def rootOptions : List OptionSpec := [verboseOption, formatOption, helpOption, versionOption]

def generateSpec : CommandSpec where
  name := "generate"
  about := "Generate render dispatch from component structs and SVG assets"
  options := [assetsOption, verboseOption, formatOption, sourcesOption,
    ⟨some 'o', "output", .path, "Output directory for generated files", none⟩,
    ⟨none, "filter", .text,
      "Filter source files by path pattern (glob, relative to the source root)", none⟩,
    flagOption (some 'w') "watch" "Watch for file changes and regenerate",
    flagOption none "dry-run" "Preview changes without writing files",
    configOption,
    flagOption none "strict-assets" "Fail on assets that are not well-formed SVG",
    flagOption none "catalog" "Also generate the asset catalog enum",
    helpOption]

def initSpec : CommandSpec where
  name := "init"
  about := "Initialize a new svg-inline configuration file"
  options := [
    ⟨some 'o', "output", .path, "Output path for configuration file", some "svg-inline.toml"⟩,
    verboseOption,
    flagOption none "force" "Overwrite existing configuration file",
    formatOption, helpOption]

def validateSpec : CommandSpec where
  name := "validate"
  about := "Validate that generated files are up-to-date"
  options := [assetsOption, verboseOption, formatOption, sourcesOption,
    ⟨some 'o', "output", .path, "Directory holding the generated files", none⟩,
    configOption, helpOption]

def specs : List CommandSpec := [generateSpec, initSpec, validateSpec]

def helpName : String := "help"

def helpAbout : String := "Print this message or the help of the given subcommand(s)"

def summaries : List (String × String) :=
  (specs.map fun s => (s.name, s.about)) ++
    [(helpName, helpAbout)]

def rootHelp (long : Bool) : String :=
  helpText about (program ++ " [OPTIONS] <COMMAND>") summaries rootOptions long

def helpOf (s : CommandSpec) (long : Bool) : String :=
  helpText s.about (program ++ " " ++ s.name ++ " [OPTIONS]") [] s.options long

def spec? (name : String) : Option CommandSpec := specs.find? (·.name == name)

/-- Help on the command that gives help, which takes names instead of options. -/
def helpOnHelp : String :=
  "\n".intercalate [helpAbout, "", "Usage: " ++ program ++ " " ++ helpName ++ " [COMMAND]...", "",
    "Arguments:", "  [COMMAND]...  Print help for the subcommand(s)"] ++ "\n"

def help? (name : String) : Option String :=
  if name = helpName then some helpOnHelp else (spec? name).map fun s => helpOf s true

/-- Help on the command that is named, if any is; no command has one below it. -/
def helpOn : List String → Refusal
  | [] => .help (rootHelp true)
  | name :: rest =>
    match help? name, rest with
    | some text, [] => .help text
    | some _, further :: _ => .usage (.unknownCommand further)
    | none, _ => .usage (.unknownCommand name)

def refusal (help : Bool → String) : Stop → Refusal
  | .usage e => .usage e
  | .help long => .help (help long)
  | .version => .version

def ofLevel (name : String) (l : Level) : Command :=
  let path := fun (long : String) => (l.value? long).map Path.mk
  let flag := fun (long : String) => if l.isGiven long then some true else none
  let overrides : Overrides :=
    ⟨path "assets", path "sources", l.value? "filter", path "output", flag "strict-assets",
      flag "catalog"⟩
  if name = "generate" then
    .generate ⟨overrides, path "config", l.isGiven "watch", l.isGiven "dry-run"⟩
  else if name = "init" then
    .init ((path "output").getD Settings.standardFile) (l.isGiven "force")
  else .validate overrides (path "config")

/-- The format that was chosen for the command, or else for the program. -/
def formatOf (root level : Level) : OutputFormat :=
  if (level.value? "format").or (root.value? "format") = some "json" then .json else .human

/-- What arguments ask for. The options before a command are looked at after those behind it. -/
def ofArgs (args : List String) : Except Refusal Invocation := do
  let (root, found) ←
    ((Level.start rootOptions).read (summaries.map Prod.fst) args).mapError (refusal rootHelp)
  match found with
  | none =>
    let root ← root.settle.mapError .usage
    if root.given.isEmpty then throw .nothing else throw (.usage (.noCommand program))
  | some (name, rest) =>
    match spec? name with
    | none => throw (helpOn rest)
    | some s =>
      let (level, _) ← ((Level.start s.options).read [] rest).mapError (refusal (helpOf s))
      let level ← level.settle.mapError .usage
      let root ← root.settle.mapError .usage
      return ⟨formatOf root level, ofLevel name level⟩

end Command
end InlineIcons.CommandLine
