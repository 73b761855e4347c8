/-!
Reading arguments against the options of a command. An option that waits for a value takes the next
argument unless that one looks like an option; its value is looked at only when the next option or
the end comes, so an unknown argument is reported before a bad value.
-/
namespace InlineIcons.CommandLine

inductive OptionKind where
  /-- On or off. -/
  | flag
  /-- How often it is given counts. -/
  | counted
  /-- A value that may not be empty. -/
  | path
  | text
  /-- One of some words, each with its meaning. -/
  | choice (words : List (String × String))
  | help
  | version
  deriving DecidableEq, Repr

structure OptionSpec where
  short : Option Char
  long : String
  kind : OptionKind
  about : String
  standard : Option String
  deriving DecidableEq, Repr

namespace OptionSpec

def takesValue (o : OptionSpec) : Bool :=
  match o.kind with
  | .path | .text | .choice _ => true
  | _ => false

def title (o : OptionSpec) : String :=
  "--" ++ o.long ++
    (if o.takesValue then " <" ++ o.long.map Char.toUpper ++ ">"
     else if o.kind = .counted then "..." else "")

end OptionSpec

inductive UsageError where
  | unknown (argument : String)
  | missingValue (option : OptionSpec)
  | badValue (value : String) (option : OptionSpec)
  | needlessValue (value : String) (option : OptionSpec)
  | repeated (option : OptionSpec)
  | unknownCommand (name : String)
  | noCommand (program : String)
  deriving DecidableEq, Repr

def UsageError.message : UsageError → String
  | unknown argument => "unexpected argument '" ++ argument ++ "' found"
  | missingValue o => "a value is required for '" ++ o.title ++ "' but none was supplied"
  | badValue value o => "invalid value '" ++ value ++ "' for '" ++ o.title ++ "'"
  | needlessValue value o =>
    "unexpected value '" ++ value ++ "' for '" ++ o.title ++ "' found; no more were expected"
  | repeated o => "the argument '" ++ o.title ++ "' cannot be used multiple times"
  | unknownCommand name => "unrecognized subcommand '" ++ name ++ "'"
  | noCommand program =>
    "'" ++ program ++ "' requires a subcommand but one was not provided"

/-- What ends the reading of arguments early. -/
inductive Stop where
  | usage (e : UsageError)
  /-- Help is asked for, at length or not. -/
  | help (long : Bool)
  | version
  deriving DecidableEq, Repr

/-- What was given to a command so far: the options with their values, the last one first, and the
option whose value was not looked at yet, with the value if it is there. -/
structure Level where
  options : List OptionSpec
  given : List (String × String)
  pending : Option (OptionSpec × Option String)

namespace Level

def start (options : List OptionSpec) : Level := ⟨options, [], none⟩

def value? (l : Level) (long : String) : Option String := l.given.lookup long

def isGiven (l : Level) (long : String) : Bool := (l.value? long).isSome

def take (l : Level) (o : OptionSpec) (value : String) : Except UsageError Level := do
  if o.kind ≠ .counted && l.isGiven o.long then throw (.repeated o)
  match o.kind with
  | .path => if value.isEmpty then throw (.missingValue o)
  | .choice words =>
    if value.isEmpty then throw (.missingValue o)
    if (words.lookup value).isNone then throw (.badValue value o)
  | _ => pure ()
  return { l with given := (o.long, value) :: l.given, pending := none }

/-- Looks at the value of the last option. -/
def settle (l : Level) : Except UsageError Level :=
  match l.pending with
  | none => .ok l
  | some (o, none) => .error (.missingValue o)
  | some (o, some value) => l.take o value

/-- Whether the next argument may be a value. -/
def awaits (l : Level) : Bool :=
  match l.pending with
  | some (_, none) => true
  | _ => false

def flag (l : Level) (o : OptionSpec) (long : Bool) : Except Stop Level := do
  let l ← l.settle.mapError .usage
  match o.kind with
  | .help => throw (.help long)
  | .version => throw .version
  | _ => (l.take o "").mapError .usage

def valued (l : Level) (o : OptionSpec) (value : Option String) : Except Stop Level := do
  let l ← l.settle.mapError .usage
  match value with
  | some value => (l.take o value).mapError .usage
  | none => return { l with pending := some (o, none) }

/-- An argument that begins with two hyphens, after them. -/
def long (l : Level) (cs : List Char) : Except Stop Level := do
  let name := cs.takeWhile (· != '=')
  let value := match cs.dropWhile (· != '=') with
    | [] => none
    | _ :: value => some (String.ofList value)
  match l.options.find? fun o => o.long.toList == name with
  | none => throw (.usage (.unknown (String.ofList ("--".toList ++ name))))
  | some o =>
    if o.takesValue then l.valued o value
    else match value with
      | some value => throw (.usage (.needlessValue value o))
      | none => l.flag o true

/-- Options of one character after a hyphen; what follows one that takes a value is its value. -/
def shorts (l : Level) : List Char → Except Stop Level
  | [] => .ok l
  | c :: cs =>
    match l.options.find? fun o => o.short == some c with
    | none => .error (.usage (.unknown (String.ofList ['-', c])))
    | some o =>
      if o.takesValue then
        match cs with
        | [] => l.valued o none
        | '=' :: value => l.valued o (some (String.ofList value))
        | value => l.valued o (some (String.ofList value))
      else
        match l.flag o false with
        | .ok l => l.shorts cs
        | .error stop => .error stop

/-- Reads arguments up to one of the given commands. What stands alone is the value that is awaited
or a fault; after two hyphens every argument is one. -/
def read (commands : List String) (l : Level) :
    List String → Except Stop (Level × Option (String × List String))
  | [] => .ok (l, none)
  | arg :: rest =>
    if !l.awaits && commands.contains arg then .ok (l, some (arg, rest))
    else match arg.toList with
      | ['-', '-'] =>
        match rest with
        | [] => .ok (l, none)
        | arg :: _ =>
          .error (.usage (if commands.isEmpty || commands.contains arg then .unknown arg
            else .unknownCommand arg))
      | '-' :: '-' :: cs =>
        match l.long cs with
        | .ok l => l.read commands rest
        | .error stop => .error stop
      | '-' :: c :: cs =>
        match l.shorts (c :: cs) with
        | .ok l => l.read commands rest
        | .error stop => .error stop
      | _ =>
        match l.pending with
        | some (o, none) => { l with pending := some (o, some arg) }.read commands rest
        | _ => .error (.usage (if commands.isEmpty then .unknown arg else .unknownCommand arg))

end Level
end InlineIcons.CommandLine
