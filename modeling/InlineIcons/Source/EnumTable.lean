import InlineIcons.Source.Findings
import InlineIcons.TextFile

/-!
Which enum a written type means. A path may be anchored at the crate, at its own module or at one
above; any other path is looked for in the module at hand, then from the crate root, and at last
among all enums whose path ends with it.
-/
namespace InlineIcons.Source

/-- The enums of a crate in the order in which they were found. -/
structure EnumTable where
  enums : List EnumRef

namespace EnumTable

/-- The enum of a path; of several the last one counts. -/
def get? (t : EnumTable) (path : String) : Option EnumRef :=
  t.enums.reverse.find? (·.path == path)

def size (t : EnumTable) : Nat := (t.enums.map EnumRef.path).eraseDups.length

def pathText (segments : List String) : String := "::".intercalate segments

def modules (namespaceName : String) : List String :=
  ((namespaceName.splitOn "::").filter (!·.isEmpty))

/-- The modules and names that an anchored path leads to; `super` goes up by one. -/
def climb? : List String → List String → Option (List String)
  | base, "self" :: rest => climb? base rest
  | base, "super" :: rest => if base.isEmpty then none else climb? base.dropLast rest
  | base, rest => some (base ++ rest)

/-- The paths of enums of the given name that end with a written path. -/
def candidates (t : EnumTable) (name written : String) : List String :=
  ((t.enums.filter (·.name == name)).map EnumRef.path).filter fun path =>
    path == written || (("::" ++ written).toList.isSuffixOf path.toList)

def search? (t : EnumTable) (namespaceName : String) (segments : List String) : Option EnumRef :=
  let written := pathText segments
  (t.get? (qualify namespaceName written)).or <| (t.get? written).or <|
    match segments.getLast?.map (t.candidates · written) with
    | some [only] => t.get? only
    | _ => none

/-- The enum that a path of plain segments means in a module. -/
def lookup? (t : EnumTable) (namespaceName : String) : List String → Option EnumRef
  | [] => none
  | "crate" :: rest => t.get? (pathText rest)
  | first :: rest =>
    if first = "self" ∨ first = "super" then
      (climb? (modules namespaceName) (first :: rest)).bind fun path => t.get? (pathText path)
    else t.search? namespaceName (first :: rest)

def resolvePath (t : EnumTable) (namespaceName : String) (segments : List Segment)
    (display : String) : TypeRef :=
  if segments.all Segment.isPlain then
    match t.lookup? namespaceName (segments.map Segment.name) with
    | some e => .enumeration display e
    | none => .other display
  else .other display

mutual
/-- What a written type means in a module. -/
def resolve (t : EnumTable) (namespaceName : String) : TypeExpr → TypeRef
  | .paren inner => t.resolve namespaceName inner
  | .path rooted segments =>
    match t.resolveOptional? namespaceName segments with
    | some inner => .optionalOf inner
    | none => t.resolvePath namespaceName segments (TypeExpr.path rooted segments).display
  | type => .other type.display

/-- What is optional, if the last segment is `Option` with one type. -/
def resolveOptional? (t : EnumTable) (namespaceName : String) : List Segment → Option TypeRef
  | [] => none
  | [.mk name (some [.type inner])] =>
    if name = "Option" then some (t.resolve namespaceName inner) else none
  | _ :: rest => t.resolveOptional? namespaceName rest
end

def declaration (t : EnumTable) (c : Component) : Declaration where
  namespaceName := c.namespaceName
  typeName := c.name
  directive := c.directive
  properties := c.fields.map fun f => ⟨f.name, t.resolve c.namespaceName f.type, f.location⟩
  location := c.location

end EnumTable

structure CrateFindings where
  declarations : List Declaration
  errors : List ParseError

namespace CrateFindings

def ofFile (directive : String) (f : TextFile) : Except ParseError Findings :=
  (⟨f.path, directive⟩ : Search).ofText f.relative.modulePath f.text

/-- Types are resolved against the enums of all files that can be read. -/
def ofFiles (directive : String) (files : List TextFile) : CrateFindings :=
  let results := files.map (ofFile directive)
  let found := results.filterMap Except.toOption
  let table : EnumTable := ⟨found.flatMap Findings.enums⟩
  { declarations := (found.flatMap Findings.components).map table.declaration
    errors := results.flatMap fun
      | .ok f => f.errors
      | .error e => [e] }

end CrateFindings
end InlineIcons.Source
