import InlineIcons.CommandLine.Options

/-!
Help texts: what a command is for, how it is called, its commands and its options. Help at length
gives each option lines of its own.
-/
namespace InlineIcons.CommandLine

structure CommandSpec where
  name : String
  about : String
  options : List OptionSpec

def padded (width : Nat) (s : String) : String :=
  s ++ String.ofList (List.replicate (width - s.length) ' ')

def blanks (n : Nat) : String := padded n ""

namespace OptionSpec

def names (o : OptionSpec) : String :=
  (match o.short with
   | some c => String.ofList ['-', c, ',', ' ']
   | none => blanks 4) ++ o.title

/-- The value that holds if none is given. -/
def standardText (o : OptionSpec) : List String :=
  (o.standard.map fun value => "[default: " ++ value ++ "]").toList

def words (o : OptionSpec) : List (String × String) :=
  match o.kind with
  | .choice words => words
  | _ => []

def wordsText (o : OptionSpec) : List String :=
  if o.words.isEmpty then []
  else ["[possible values: " ++ ", ".intercalate (o.words.map Prod.fst) ++ "]"]

/-- What an option is for; help points to the other kind of help. -/
def purpose (o : OptionSpec) (long : Bool) : String :=
  if o.kind = .help then
    if long then "Print help (see a summary with '-h')" else "Print help (see more with '--help')"
  else o.about

def line (o : OptionSpec) (width : Nat) : String :=
  "  " ++ padded (width + 2) o.names ++
    " ".intercalate (o.purpose false :: (o.standardText ++ o.wordsText))

def indent : String := blanks 10

/-- The words of a choice, each with its meaning. -/
def wordLines (o : OptionSpec) : List String :=
  let width := (o.words.map fun w => w.1.length).foldl max 0
  if o.words.isEmpty then []
  else ["", indent ++ "Possible values:"] ++ o.words.map fun (word, meaning) =>
    indent ++ "- " ++ padded (width + 2) (word ++ ":") ++ meaning

def lines (o : OptionSpec) : List String :=
  ["  " ++ o.names, indent ++ o.purpose true] ++
    (o.standardText.flatMap fun text => [indent, indent ++ text]) ++ o.wordLines

end OptionSpec

def optionLines (options : List OptionSpec) (long : Bool) : List String :=
  if long then ([""] : List String).intercalate (options.map OptionSpec.lines)
  else
    let width := (options.map fun o => o.names.length).foldl max 0
    options.map (·.line width)

def commandLines (commands : List (String × String)) : List String :=
  let width := (commands.map fun c => c.1.length).foldl max 0
  commands.map fun (name, about) => "  " ++ padded (width + 2) name ++ about

/-- The help of a command, given how it is called and the commands below it. -/
def helpText (about call : String) (commands : List (String × String)) (options : List OptionSpec)
    (long : Bool) : String :=
  let commandPart := if commands.isEmpty then [] else "Commands:" :: commandLines commands ++ [""]
  let parts := [about, "", "Usage: " ++ call, ""] ++ commandPart ++
    "Options:" :: optionLines options long
  "\n".intercalate parts ++ "\n"

end InlineIcons.CommandLine
