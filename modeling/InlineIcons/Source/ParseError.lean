import InlineIcons.Location

/-!
Faults of source files.
-/
namespace InlineIcons

inductive ParseError where
  /-- The file cannot be read. -/
  | malformed (location : Location) (message : String)
  /-- A directive is refused; the rest of its file still counts. -/
  | directive (location : Location) (message : String)
  | several (errors : List ParseError)
  deriving Repr, Inhabited

namespace ParseError

mutual
def message : ParseError → String
  | malformed l m => s!"Syntax error in {l.text}: {m}"
  | directive l m => s!"Invalid attribute in {l.text}: {m}"
  | several errors => "Multiple parse errors:\n" ++ "\n".intercalate (numbered 1 errors)

/-- Messages as a list that counts from the given number. -/
def numbered (n : Nat) : List ParseError → List String
  | [] => []
  | e :: es => s!"  {n}. {e.message}" :: numbered (n + 1) es
end

def location? : ParseError → Option Location
  | malformed l _ | directive l _ => some l
  | several _ => none

end ParseError
end InlineIcons
