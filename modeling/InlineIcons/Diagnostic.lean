import InlineIcons.Location

/-!
Diagnostics: what is wrong with a definition or an icon, as a code with arguments. The text is made
from the code's template.
-/
namespace InlineIcons

inductive DiagnosticCode where
  | kindPropertyMissing
  | extrasPropertyMissing
  | kindPropertyNoEnum
  | assetMissing
  | assetSkipped
  deriving DecidableEq, Repr

namespace DiagnosticCode

def id : DiagnosticCode → String
  | kindPropertyMissing => "SVG001"
  | extrasPropertyMissing => "SVG002"
  | kindPropertyNoEnum => "SVG003"
  | assetMissing => "SVG004"
  | assetSkipped => "SVG005"

def ofId? (id : String) : Option DiagnosticCode :=
  [kindPropertyMissing, extrasPropertyMissing, kindPropertyNoEnum, assetMissing, assetSkipped].find?
    (·.id == id)

/-- A template with the places of the arguments numbered from zero. -/
def template : DiagnosticCode → String
  | kindPropertyMissing => "Kind property '\x7b0\x7d' was not found on the type"
  | extrasPropertyMissing => "Additional attributes property '\x7b0\x7d' was not found on the type"
  | kindPropertyNoEnum => "Kind property '\x7b0\x7d' has type '\x7b1\x7d', which is not an enum"
  | assetMissing =>
    "No asset found for enum member '\x7b0\x7d', expected a file named '\x7b1\x7d'"
  | assetSkipped => "Asset '\x7b0\x7d' was skipped: \x7b1\x7d"

end DiagnosticCode

structure Diagnostic where
  code : DiagnosticCode
  args : List String
  location : Location
  deriving DecidableEq, Repr

namespace Diagnostic

/-- Replaces the occurrences of a mark from left to right; `skip` counts the characters that belong
to an occurrence already replaced. -/
def substitute (mark value : List Char) : Nat → List Char → List Char
  | _, [] => []
  | skip + 1, _ :: cs => substitute mark value skip cs
  | 0, c :: cs =>
    if mark.isPrefixOf (c :: cs) then value ++ substitute mark value (mark.length - 1) cs
    else c :: substitute mark value 0 cs

def place (index : Nat) : List Char := '\x7b' :: (toString index).toList ++ ['\x7d']

/-- Fills in the arguments one after the other, so a place that an argument brings along is filled by
the arguments after it. -/
def fill (index : Nat) (text : List Char) : List String → List Char
  | [] => text
  | arg :: args => fill (index + 1) (substitute (place index) arg.toList 0 text) args

def message (d : Diagnostic) : String :=
  String.ofList (fill 0 d.code.template.toList d.args)

def line (d : Diagnostic) : String :=
  d.location.text ++ ": warning [" ++ d.code.id ++ "]: " ++ d.message

def toJson (d : Diagnostic) : Json :=
  .obj [("code", .str d.code.id), ("severity", .str "warning"), ("args", .ofTexts d.args),
    ("location", d.location.toJson)]

def kindPropertyMissing (property : String) (location : Location) : Diagnostic :=
  ⟨.kindPropertyMissing, [property], location⟩

def extrasPropertyMissing (property : String) (location : Location) : Diagnostic :=
  ⟨.extrasPropertyMissing, [property], location⟩

def kindPropertyNoEnum (property type : String) (location : Location) : Diagnostic :=
  ⟨.kindPropertyNoEnum, [property, type], location⟩

def assetMissing (member file : String) (location : Location) : Diagnostic :=
  ⟨.assetMissing, [member, file], location⟩

/-- A skipped file is reported at its first character. -/
def assetSkipped (path : Path) (reason : String) : Diagnostic :=
  ⟨.assetSkipped, [path.text, reason], ⟨path, 1, 1⟩⟩

end Diagnostic
end InlineIcons
