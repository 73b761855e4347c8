import InlineIcons.Path

/-!
The module that a source file holds, from its place below the source root.
-/
namespace InlineIcons

def Path.names (p : Path) : List String :=
  p.components.filterMap fun
    | .name cs => some (String.ofList cs)
    | _ => none

/-- Directories are modules and so is the file, except that `mod` stands for its directory, and
`lib` and `main` at the top for the crate root. -/
def Path.modulePath (relative : Path) : String :=
  match relative.names.reverse with
  | [] => ""
  | file :: parents =>
    let stem := ((⟨file⟩ : Path).fileStem?).getD ""
    let isRoot := parents.isEmpty && (stem == "lib" || stem == "main")
    "::".intercalate (parents.reverse ++ if isRoot || stem == "mod" then [] else [stem])

end InlineIcons
