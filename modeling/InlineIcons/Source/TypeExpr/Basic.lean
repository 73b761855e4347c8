/-!
Written types. Only paths, references, tuples, slices and parentheses have a structure here; any
other form is kept as the text of its tokens. `display` is the form that messages show.
-/
namespace InlineIcons.Source

mutual
inductive TypeExpr where
  /-- A path; `rooted` says that it begins with `::`. -/
  | path (rooted : Bool) (segments : List Segment)
  | reference (lifetime : Option String) (mutable : Bool) (target : TypeExpr)
  | tuple (items : List TypeExpr)
  | slice (item : TypeExpr)
  | paren (inner : TypeExpr)
  | other (text : String)

/-- A part of a path, with what stands between its angle brackets if it has them. -/
inductive Segment where
  | mk (name : String) (args : Option (List GenericArg))

inductive GenericArg where
  | type (t : TypeExpr)
  | other (text : String)
end

instance : Inhabited TypeExpr := ⟨.tuple []⟩

namespace Segment

def name : Segment → String
  | mk n _ => n

def args : Segment → List GenericArg
  | mk _ (some args) => args
  | mk _ none => []

/-- A segment without arguments; empty brackets do not count. -/
def isPlain (s : Segment) : Bool := s.args.isEmpty

def isBare : Segment → Bool
  | mk _ none => true
  | mk _ (some _) => false

end Segment

def commaSeparated : List (List Char) → List Char := List.intercalate [',', ' ']

mutual
def TypeExpr.show : TypeExpr → List Char
  | .path rooted segments => (if rooted then [':', ':'] else []) ++ showSegments segments
  | .reference _ mutable target =>
    '&' :: (if mutable then ['m', 'u', 't', ' '] else []) ++ target.show
  | .tuple items => '(' :: commaSeparated (showTypes items) ++ [')']
  | .slice item => '[' :: item.show ++ [']']
  | .paren inner => inner.show
  | .other text => text.toList

def Segment.show : Segment → List Char
  | .mk n none => n.toList
  | .mk n (some args) => n.toList ++ '<' :: commaSeparated (showArgs args) ++ ['>']

def GenericArg.show : GenericArg → List Char
  | .type t => t.show
  | .other text => text.toList

def showSegments : List Segment → List Char
  | [] => []
  | [s] => s.show
  | s :: rest => s.show ++ ':' :: ':' :: showSegments rest

def showTypes : List TypeExpr → List (List Char)
  | [] => []
  | t :: ts => t.show :: showTypes ts

def showArgs : List GenericArg → List (List Char)
  | [] => []
  | a :: as => a.show :: showArgs as
end

/-- The text of a type in messages: lifetimes of references and parentheses are left out. -/
def TypeExpr.display (t : TypeExpr) : String := String.ofList t.show

/-- A type without parentheses around it. -/
def TypeExpr.bare : TypeExpr → TypeExpr
  | .paren inner => inner.bare
  | t => t

end InlineIcons.Source
