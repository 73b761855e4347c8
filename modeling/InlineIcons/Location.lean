import InlineIcons.Json.Basic
import InlineIcons.Path

/-!
Places in source files.
-/
namespace InlineIcons

/-- Lines and columns count from one; zero stands for a place that was never given. -/
structure Location where
  file : Path
  line : Nat
  column : Nat
  deriving DecidableEq, Repr

namespace Location

def none : Location := ⟨⟨""⟩, 0, 0⟩

instance : Inhabited Location := ⟨none⟩

def text (l : Location) : String := s!"{l.file.text}:{l.line}:{l.column}"

def toJson (l : Location) : Json :=
  .obj [("file", .str l.file.text), ("line", .num l.line), ("column", .num l.column)]

def ofJson? (j : Json) : Option Location := do
  let file ← (j.field "file").str?
  let line ← (j.field "line").word?
  let column ← (j.field "column").word?
  return ⟨⟨file⟩, line, column⟩

/-- A location that may be left out of its object, but is then no `null`. -/
def ofField? (j : Json) (key : String) : Option Location :=
  match j with
  | .obj _ =>
    match j.entries key with
    | [] => some none
    | [value] => ofJson? value
    | _ => .none
  | _ => .none

end Location
end InlineIcons
