import InlineIcons.Toml.Reader

/-!
What the lines of a TOML document say together. A table is stated once by its header, or it grows by
dotted keys, or it is passed on the way to another one; a key has one value.
-/
namespace InlineIcons.Toml

/-- How a table came to be. -/
inductive Origin where
  /-- By its own header. -/
  | stated
  /-- On the way to another header. -/
  | passed
  /-- By dotted keys. -/
  | dotted
  deriving DecidableEq, Repr

/-- What a key leads to while a document is read. -/
inductive Entry where
  | value (v : Value)
  | table (origin : Origin) (fields : List (String × Entry))
  | elements (tables : List (List (String × Entry)))
  deriving Repr, Inhabited

abbrev Fields := List (String × Entry)

namespace Fields

def replace (fields : Fields) (key : String) (e : Entry) : Fields :=
  fields.map fun (k, old) => if k = key then (k, e) else (k, old)

/-- Changes the table that the path of a header leads to, and makes those that are missing. -/
def within (change : Fields → Option Fields) : List String → Fields → Option Fields
  | [], fields => change fields
  | key :: path, fields =>
    match fields.lookup key with
    | none => do return fields ++ [(key, .table .passed (← within change path []))]
    | some (.table origin inner) => do
      return fields.replace key (.table origin (← within change path inner))
    | some (.elements tables) =>
      match tables.getLast? with
      | some last => do
        return fields.replace key (.elements (tables.dropLast ++ [← within change path last]))
      | none => none
    | some (.value _) => none

/-- States a table. One that was only passed may still be stated. -/
def state (key : String) (fields : Fields) : Option Fields :=
  match fields.lookup key with
  | none => some (fields ++ [(key, .table .stated [])])
  | some (.table .passed inner) => some (fields.replace key (.table .stated inner))
  | some _ => none

/-- Adds an element to an array of tables. -/
def extend (key : String) (fields : Fields) : Option Fields :=
  match fields.lookup key with
  | none => some (fields ++ [(key, .elements [[]])])
  | some (.elements tables) => some (fields.replace key (.elements (tables ++ [[]])))
  | some _ => none

/-- Gives a dotted key its value. The table that holds it must have come from dotted keys itself. -/
def assign (v : Value) : List String → Fields → Option Fields
  | [], _ => none
  | [key], fields => if (fields.lookup key).isSome then none else some (fields ++ [(key, .value v)])
  | key :: path, fields =>
    match fields.lookup key with
    | none => do return fields ++ [(key, .table .dotted (← assign v path []))]
    | some (.table .dotted inner) => do
      return fields.replace key (.table .dotted (← assign v path inner))
    | some (.table .passed inner) =>
      if path.length = 1 then none
      else do return fields.replace key (.table .passed (← assign v path inner))
    | some (.elements tables) =>
      match tables.getLast? with
      | some last =>
        if path.length = 1 then none
        else do
          return fields.replace key (.elements (tables.dropLast ++ [← assign v path last]))
      | none => none
    | some (.table .stated _) | some (.value _) => none

end Fields

mutual
def Entry.settle : Entry → Value
  | .value v => v
  | .table _ fields => .table (settleFields fields)
  | .elements tables => .array (settleElements tables)

def settleFields : List (String × Entry) → List (String × Value)
  | [] => []
  | (key, e) :: fields => (key, e.settle) :: settleFields fields

def settleElements : List (List (String × Entry)) → List Value
  | [] => []
  | t :: tables => .table (settleFields t) :: settleElements tables
end

mutual
/-- The value of what is written; the lines of an inline table have to agree. -/
def Written.settle : Written → Option Value
  | .text s => some (.text s)
  | .flag b => some (.flag b)
  | .plain => some .plain
  | .array items => do return .array (← settleItems items)
  | .inline lines => do return .table (settleFields (← settleLines [] lines))

def settleItems : List Written → Option (List Value)
  | [] => some []
  | w :: ws => do return (← w.settle) :: (← settleItems ws)

def settleLines (fields : Fields) : List (List String × Written) → Option Fields
  | [] => some fields
  | (path, w) :: lines => do settleLines (← fields.assign (← w.settle) path) lines
end

/-- Adds a line to a document, given the table that the last header led to. -/
def Line.add (section? : List String) (fields : Fields) : Line → Option (List String × Fields)
  | .header path => do
    return (path, ← Fields.within (Fields.state (path.getLastD "")) path.dropLast fields)
  | .element path => do
    return (path, ← Fields.within (Fields.extend (path.getLastD "")) path.dropLast fields)
  | .entry path w => do
    let v ← w.settle
    return (section?, ← Fields.within (Fields.assign v path) section? fields)

def addAll (current : List String) (fields : Fields) : List Line → Option Fields
  | [] => some fields
  | line :: lines => do
    let (current, fields) ← line.add current fields
    addAll current fields lines

def ofText? (text : String) : Option (List (String × Value)) := do
  let (lines, _) ← Reader.document.run text.toList
  return settleFields (← addAll [] [] lines)

end InlineIcons.Toml
