import InlineIcons.Source.Item.Basic
import InlineIcons.Source.TypeExpr.Reader

/-!
Reading items. Every kind of item is read as far as its signature goes, so that the first fault there
is found where it is. Bodies of functions, values, discriminants and array lengths are passed over
unread: a fault inside them is not found, and where one ends is told by its marks alone. The results
on the files of a crate do not turn on this: of the verdicts on texts they use only that an empty text
holds no items, and where directives are read in two ways both go through this reader.
-/
namespace InlineIcons.Source
open Reader

namespace Item

def types : Reader TypeGrammar := do return .ofTokens (← tokens)

def type : Reader Unit := discard TypeExpr.reader

def bound : Reader Unit := do discard ((← types).bound ⟨false, true⟩)

/-- What comes after a value: the tokens from the first mark of the given kind that is not among type
arguments. An angle bracket opens such arguments behind `::` and where a value has to begin. -/
def afterValue (stop : Char) (angles : Nat) (begins : Bool) : List TokenTree → List TokenTree
  | [] => []
  | .mark ':' _ _ :: .mark '<' _ _ :: ts => afterValue stop (angles + 1) true ts
  | .mark '-' _ _ :: .mark '>' _ _ :: ts => afterValue stop angles true ts
  | .mark '<' true _ :: .mark '<' joint p :: ts =>
    if angles = 0 && !begins then afterValue stop 0 true ts
    else afterValue stop (angles + 1) true (.mark '<' joint p :: ts)
  | .mark c joint p :: ts =>
    if angles = 0 then
      if c = stop then .mark c joint p :: ts
      else if c = '<' && begins then afterValue stop 1 true ts
      else afterValue stop 0 (c ≠ '?') ts
    else if c = '<' then afterValue stop (angles + 1) true ts
    else if c = '>' then afterValue stop (angles - 1) false ts
    else afterValue stop angles true ts
  | _ :: ts => afterValue stop angles false ts

/-- Passes over a value up to a mark. -/
def skipValue (stop : Char) : Reader Unit := do setTokens (afterValue stop 0 true (← tokens))

def visibility : Reader Bool := do
  if !(← word? "pub") then return false
  match ← tokens with
  | .group .parenthesis _ _ inner :: rest =>
    if ["crate", "self", "super"].any (beginsWord · inner) then
      if inner.length = 1 then setTokens rest
    else if beginsWord "in" inner then
      inGroup .parenthesis do
        word "in"
        discard Attribute.simplePath
  | _ => pure ()
  return true

def beginsBody : Reader Bool := peek (beginsGroup .brace)

/-- The parameters of an item: whether there are any. -/
def generics : Reader Bool := do
  if !(← peekMark "<") then return false
  let g ← types
  mark "<"
  let params ← separated "," TypeGrammar.closesArguments do
    discard Attribute.outer
    if ← peek beginsLifetime then TypeGrammar.lifetimeParameter
    else if ← peek beginsName then TypeGrammar.typeParameter g
    else if ← peekWord "const" then TypeGrammar.constParameter g
    else if ← peekWord "_" then discard anyWord
    else expected ["lifetime", "identifier", quoted "const"]
  mark ">"
  return !params.isEmpty

/-- Whether parameters of an item come, rather than a path that begins inside a type. -/
def beginsGenerics (ts : List TokenTree) : Bool :=
  let second := ts.drop 1
  let third := afterOne second
  beginsMark "<" ts &&
    (beginsMark ">" second || beginsMark "#" second || beginsWord "const" second ||
      ((beginsLifetime second || beginsName second) &&
        (beginsMark ">" third || beginsMark "," third || beginsMark "=" third ||
          (beginsMark ":" third && !beginsMark "::" third))))

/-- What ends the conditions of an item. -/
def endsCondition (ts : List TokenTree) : Bool :=
  ts.isEmpty || beginsGroup .brace ts || beginsMark "," ts || beginsMark ";" ts ||
    (beginsMark ":" ts && !beginsMark "::" ts) || beginsMark "=" ts

def condition : Reader Unit := do
  let ts ← tokens
  if beginsLifetime ts && beginsMark ":" (afterOne ts) then
    discard lifetime
    mark ":"
    TypeGrammar.lifetimeBounds (peek endsCondition)
  else
    discard (TypeGrammar.binder? (← types))
    type
    mark ":"
    discard (joined (peek endsCondition) bound)

def conditions : Reader Unit := do
  if ← word? "where" then
    if ← peek beginsGenerics then
      fail (.rule "generic parameters on `where` clauses are reserved for future use")
    discard (separated "," (peek endsCondition) condition)

def namedField : Reader Field := do
  discard Attribute.outer
  discard visibility
  let place ← here
  let unnamed ← peekWord "_"
  let name ← if unnamed then anyWord else name
  mark ":"
  return ⟨some name, ← TypeExpr.reader, place⟩

def positionalField : Reader Field := do
  discard Attribute.outer
  discard visibility
  let place ← here
  return ⟨none, ← TypeExpr.reader, place⟩

def namedFields : Reader (List Field) := inGroup .brace (commaList namedField)

def positionalFields : Reader (List Field) := inGroup .parenthesis (commaList positionalField)

/-- Conditions and fields of a struct; after fields in parentheses the conditions come last. -/
def structBody : Reader (List Field) := do
  let conditioned ← peekWord "where"
  conditions
  if ← beginsBody then namedFields
  else if ← mark? ";" then return []
  else if !conditioned && (← peek (beginsGroup .parenthesis)) then
    let fields ← positionalFields
    let conditioned ← peekWord "where"
    conditions
    if !(← mark? ";") then
      expected ((if conditioned then [] else [quoted "where"]) ++ [quoted ";"])
    return fields
  else
    expected ((if conditioned then [] else [quoted "where", "parentheses"]) ++
      ["curly braces", quoted ";"])

def structItem (attributes : List Attribute) : Reader StructItem := do
  word "struct"
  let place ← here
  let name ← name
  let generic ← generics
  return ⟨attributes, name, place, generic, ← structBody⟩

def variant : Reader Variant := do
  discard Attribute.outer
  discard visibility
  let name ← name
  let hasData ←
    if ← beginsBody then
      discard namedFields
      pure true
    else if ← peek (beginsGroup .parenthesis) then
      discard positionalFields
      pure true
    else pure false
  if ← mark? "=" then skipValue ','
  return ⟨name, hasData⟩

def enumItem : Reader EnumItem := do
  word "enum"
  let name ← name
  discard generics
  conditions
  return ⟨name, ← inGroup .brace (commaList variant)⟩

/-- What comes after the pattern of an argument. -/
def afterPattern : List TokenTree → List TokenTree
  | [] => []
  | .mark ':' true _ :: .mark ':' _ _ :: ts => afterPattern ts
  | .mark ':' joint p :: ts => .mark ':' joint p :: ts
  | _ :: ts => afterPattern ts

/-- A receiver: `self`, by reference or with a type of its own. -/
def receiver? : Reader Bool := do
  let start ← tokens
  let byReference ← mark? "&"
  if byReference && (← peek beginsLifetime) then discard lifetime
  discard (word? "mut")
  if ← word? "self" then
    if !byReference then
      if ← mark? ":" then type
    return true
  else
    setTokens start
    return false

def argument : Reader Unit := do
  discard Attribute.outer
  if ← mark? "..." then return
  if ← receiver? then return
  if ← peek fun ts => beginsName ts && beginsMark "<" (ts.drop 1) then return ← type
  setTokens (afterPattern (← tokens))
  mark ":"
  if !(← mark? "...") then type

/-- The words that may stand before `fn`; `safe` is one for foreign functions. -/
def qualifiers (foreign : Bool) : Reader Unit := do
  discard (word? "const")
  discard (word? "async")
  if !(← word? "unsafe") && foreign then discard (word? "safe")
  TypeGrammar.convention?

def beginsFunction (foreign : Bool) : Reader Bool := do
  let start ← tokens
  qualifiers foreign
  let found ← peekWord "fn"
  setTokens start
  return found

def signature (foreign : Bool) : Reader Unit := do
  qualifiers foreign
  word "fn"
  discard name
  discard generics
  discard (inGroup .parenthesis (commaList argument))
  TypeGrammar.result (← types) true
  conditions

def functionItem : Reader Unit := do
  signature false
  if !(← mark? ";") then skipGroup .brace

/-- The tree of names that a `use` brings in. -/
def useTreeWithin : Nat → Reader Unit
  | 0 => expected []
  | depth + 1 => do
    if ← peek fun ts => beginsName ts || TypeGrammar.beginsAnchor ts then
      discard anyWord
      if ← mark? "::" then useTreeWithin depth
      else if ← word? "as" then
        if ← peek fun ts => beginsName ts || beginsWord "_" ts then discard anyWord
        else expected ["identifier", "underscore"]
    else if ← mark? "*" then return
    else if ← beginsBody then
      discard (inGroup .brace (commaList do discard (mark? "::"); useTreeWithin depth))
    else
      expected ["identifier", quoted "self", quoted "super", quoted "crate", quoted "try",
        quoted "*", "curly braces"]

def useItem : Reader Unit := do
  word "use"
  discard (mark? "::")
  useTreeWithin (TokenTree.weightAll (← tokens) + 1)
  mark ";"

def staticItem : Reader Unit := do
  word "static"
  discard (word? "mut")
  discard name
  if !(← peekMark "=") then
    mark ":"
    type
  if ← mark? "=" then skipValue ';'
  mark ";"

def constItem : Reader Unit := do
  word "const"
  if ← peek fun ts => beginsName ts || beginsWord "_" ts then discard anyWord
  else expected ["identifier", quoted "_"]
  discard generics
  mark ":"
  type
  if ← mark? "=" then skipValue ';'
  conditions
  mark ";"

def externCrate : Reader Unit := do
  word "extern"
  word "crate"
  if !(← word? "self") then discard name
  if ← word? "as" then
    if !(← word? "_") then discard name
  mark ";"

def boundsUntil (stop : Reader Bool) : Reader Unit := discard (separated "+" stop bound)

def endsAlias : Reader Bool := do
  return (← peekWord "where") || (← peekMark "=") || (← peekMark ";")

def typeItem : Reader Unit := do
  word "type"
  discard name
  discard generics
  if ← mark? ":" then boundsUntil endsAlias
  conditions
  if ← mark? "=" then type
  conditions
  mark ";"

def unionItem : Reader Unit := do
  word "union"
  discard name
  discard generics
  conditions
  discard namedFields

def macroItem : Reader Unit := do
  discard Attribute.simplePath
  mark "!"
  if ← peek fun ts => beginsName ts || beginsWord "try" ts then discard anyWord
  match ← tokens with
  | .group d _ _ _ :: rest =>
    setTokens rest
    if d ≠ .brace then mark ";"
  | _ => expected ["delimiter"]

def macroDefinition : Reader Unit := do
  word "macro"
  discard name
  let patterned ← peek (beginsGroup .parenthesis)
  if patterned then skipGroup .parenthesis
  if ← beginsBody then skipGroup .brace
  else expected ((if patterned then [] else ["parentheses"]) ++ ["curly braces"])

/-- A kind of item: how a fault names it, the sign by which it is known, and its reader. -/
structure Kind (α : Type) where
  label : String
  sign : List TokenTree → Bool
  read : Reader α

namespace Kind

/-- A kind known by its first word. -/
def ofWord (word : String) (read : Reader α) : Kind α := ⟨quoted word, beginsWord word, read⟩

/-- A kind known by its first word only if the given test holds after it. -/
def ofWordBefore (word : String) (test : List TokenTree → Bool) (read : Reader α) : Kind α :=
  ⟨quoted word, fun ts => beginsWord word ts && test (ts.drop 1), read⟩

/-- Macro calls are known by the path with which they begin. -/
def macros (read : Reader α) : List (Kind α) :=
  ⟨"identifier", beginsName, read⟩ :: ["self", "super", "crate"].map (ofWord · read) ++
    [⟨quoted "::", beginsMark "::", read⟩]

/-- Reads the first kind whose sign comes; if none does, the fault names all of them. -/
def readFirst (kinds : List (Kind α)) : Reader α := do
  let ts ← tokens
  match kinds.find? (·.sign ts) with
  | some kind => kind.read
  | none => expected (kinds.map Kind.label)

end Kind

/-- A member function: a body may be left out. -/
def memberFunction (inTrait : Bool) : Reader Unit := do
  signature false
  if ← mark? ";" then return
  if inTrait && !(← beginsBody) then expected ["curly braces", quoted ";"]
  skipGroup .brace

def member (inTrait : Bool) : Reader Unit := do
  discard Attribute.outer
  let visible ← visibility
  let specialised ←
    if ← peek fun ts => beginsWord "default" ts && !beginsMark "!" (ts.drop 1) then word? "default"
    else pure false
  if ← beginsFunction false then memberFunction inTrait
  else
    let modifier : List (Kind Unit) :=
      if inTrait || specialised then [] else [⟨quoted "default", fun _ => false, pure ()⟩]
    Kind.readFirst (modifier ++
      [.ofWord "fn" (memberFunction inTrait), .ofWord "const" constItem, .ofWord "type" typeItem] ++
      if visible || specialised then [] else Kind.macros macroItem)

def untilEnd (item : Reader α) : Reader (List α) := whileHolds (do return !(← atEnd)) item

def body (member : Reader α) : Reader (List α) := inGroup .brace do
  Attribute.inner
  untilEnd member

def foreignFunction : Reader Unit := do
  signature true
  if ← beginsBody then skipGroup .brace else mark ";"

def foreignMember : Reader Unit := do
  discard Attribute.outer
  let visible ← visibility
  if ← beginsFunction true then foreignFunction
  else
    let marked := fun ts => (beginsWord "unsafe" ts || beginsWord "safe" ts) &&
      beginsWord "static" (ts.drop 1)
    if ← peek marked then discard anyWord
    Kind.readFirst (
      [.ofWord "fn" foreignFunction, .ofWord "static" staticItem, .ofWord "type" typeItem] ++
      if visible then [] else Kind.macros macroItem)

def foreignBlock : Reader Unit := do
  discard (word? "unsafe")
  TypeGrammar.convention?
  discard (body foreignMember)

/-- What begins with `extern` and is no function. -/
def externItem : Reader Unit := do
  let ts ← tokens
  let second := ts.drop 1
  match second with
  | .literal t _ :: third =>
    if (Quoted.text? t).isSome then
      if beginsGroup .brace third then foreignBlock
      else
        setTokens third
        expected ["curly braces"]
    else
      setTokens second
      expected [quoted "crate", "curly braces", "string literal"]
  | _ =>
    if beginsWord "crate" second then externCrate
    else if beginsGroup .brace second then foreignBlock
    else
      setTokens second
      expected [quoted "crate", "curly braces", "string literal"]

/-- A trait; where `aliased` holds, the alias of one will do. -/
def traitItem (aliased : Bool) : Reader Unit := do
  discard (word? "unsafe")
  discard (word? "auto")
  word "trait"
  discard name
  discard generics
  if aliased && (← mark? "=") then
    boundsUntil (do return (← peekWord "where") || (← peekMark ";"))
    conditions
    mark ";"
  else
    if aliased then
      if !((← beginsBody) || (← peekMark ":") || (← peekWord "where")) then
        expected ["curly braces", quoted ":", quoted "where", quoted "="]
    if ← mark? ":" then boundsUntil (do return (← peekWord "where") || (← beginsBody))
    conditions
    discard (body (member true))

def implementation : Reader Unit := do
  discard (word? "default")
  discard (word? "unsafe")
  word "impl"
  if ← peek beginsGenerics then discard generics
  if ← peek fun ts => beginsWord "const" ts || (beginsMark "?" ts && beginsWord "const" (ts.drop 1)) then
    discard (mark? "?")
    word "const"
  let place ← here
  let negative ← if ← peek fun ts => beginsMark "!" ts && !beginsGroup .brace (ts.drop 1) then
      mark? "!" else pure false
  type
  if ← word? "for" then type
  else if negative then throw ⟨place, .rule "inherent impls cannot be negative"⟩
  conditions
  discard (body (member false))

/-- What begins with `unsafe` and is no function. -/
def unsafeItem (nested : Reader Item) : Reader Item := do
  let second := (← tokens).drop 1
  if beginsWord "trait" second || (beginsWord "auto" second && beginsWord "trait" (second.drop 1)) then
    traitItem false
    return .other
  else if beginsWord "impl" second then
    implementation
    return .other
  else if beginsWord "extern" second then
    foreignBlock
    return .other
  else if beginsWord "mod" second then
    discard (word? "unsafe")
    nested
  else
    setTokens second
    expected (["trait", "auto", "impl", "extern", "mod"].map quoted)

/-- A module, with its items or in a file of its own. -/
def nestedItem (item : Reader Item) : Reader Item := do
  word "mod"
  let n ← if ← peekWord "try" then anyWord else name
  if ← mark? ";" then return .other
  if !(← beginsBody) then expected [quoted ";", "curly braces"]
  return .nested n (← body item)

/-- One item, given how the items of an inner module are read. -/
def read (item : Reader Item) : Reader Item := do
  let attributes ← Attribute.outer
  let visible ← visibility
  let other (r : Reader Unit) : Reader Item := do r; return .other
  if ← beginsFunction false then other functionItem
  else
    Kind.readFirst (
      [.ofWord "fn" (other functionItem),
        .ofWord "extern" (other externItem),
        .ofWord "use" (other useItem),
        .ofWord "static" (other staticItem),
        .ofWord "const" (other constItem),
        .ofWord "unsafe" (unsafeItem (nestedItem item)),
        .ofWord "mod" (nestedItem item),
        .ofWord "type" (other typeItem),
        .ofWord "struct" (do return .struct (← structItem attributes)),
        .ofWord "enum" (do return .enum (← enumItem)),
        .ofWordBefore "union" beginsName (other unionItem),
        .ofWord "trait" (other (traitItem true)),
        .ofWordBefore "auto" (beginsWord "trait") (other (traitItem false)),
        .ofWord "impl" (other implementation),
        .ofWordBefore "default" (fun ts => !beginsMark "!" ts) (other implementation),
        .ofWord "macro" (other macroDefinition)] ++
      if visible then [] else Kind.macros (other macroItem))

/-- Items whose modules nest no deeper than the bound. -/
def within : Nat → Reader Item
  | 0 => expected []
  | depth + 1 => read (within depth)

def file : Reader (List Item) := do
  let depth := TokenTree.weightAll (← tokens) + 1
  Attribute.inner
  untilEnd (within depth)

/-- What is read of a file: a first line for the program loader is left out, but its end still
counts. -/
def withoutLoaderLine (cs : List Char) : List Char :=
  match cs with
  | '#' :: '!' :: rest =>
    if (Lexeme.skipSilent rest.length rest).head? = some '[' then cs else cs.dropWhile (· ≠ '\n')
  | _ => cs

def ofChars? (cs : List Char) : Except SyntaxFault (List Item) :=
  let cs := match cs with
    | '\ufeff' :: rest => rest
    | cs => cs
  file.runText (withoutLoaderLine cs)

def ofText? (text : String) : Except SyntaxFault (List Item) := ofChars? text.toList

end Item

namespace StructItem

def reader : Reader StructItem := do
  let attributes ← Attribute.outer
  discard Item.visibility
  Item.structItem attributes

end StructItem
end InlineIcons.Source
