import InlineIcons.Source.Attribute
import InlineIcons.Source.TokenText
import InlineIcons.Source.TypeExpr.Basic

/-!
Reading types. The grammar is that of the language in full, bounds and function types included; the
forms without a structure of their own are read to know where they end and what is wrong with them.
-/
namespace InlineIcons.Source
open Reader

/-- What a bound may hold beyond lifetimes and traits. -/
structure BoundRules where
  capture : Bool
  constness : Bool

inductive BoundKind where
  | trait
  | lifetime
  | capture
  deriving DecidableEq

/-- Readers of the parts that a type may hold; these nest, so each is read by those of one level
below. -/
structure TypeGrammar where
  type : Bool → Reader TypeExpr
  bound : BoundRules → Reader BoundKind

namespace TypeGrammar

def beginsLiteral : List TokenTree → Bool
  | .literal _ _ :: _ => true
  | .word t _ :: _ => t == "true" || t == "false"
  | .mark '-' _ _ :: .literal t _ :: _ => (t.toList.head?.map Char.isDigit).getD false
  | _ => false

/-- Segments that never have arguments. -/
def anchors : List String := ["super", "self", "crate", "try"]

def beginsAnchor (ts : List TokenTree) : Bool := anchors.any (beginsWord · ts)

def beginsAnyWord : List TokenTree → Bool
  | .word _ _ :: _ => true
  | _ => false

/-- Whether another bound may follow a `+`. -/
def beginsBound (constness : Bool) (ts : List TokenTree) : Bool :=
  beginsAnyWord ts || beginsMark "::" ts || beginsMark "?" ts || beginsLifetime ts ||
    beginsGroup .parenthesis ts || (constness && (beginsGroup .bracket ts || beginsWord "const" ts))

/-- The tokens since a given point, as the text of a type. -/
def textSince (start : List TokenTree) : Reader String := do
  return TokenText.ofType (start.take (start.length - (← tokens).length))

def shownSince (start : List TokenTree) : Reader TypeExpr := do return .other (← textSince start)

/-- A value among generic arguments: a literal, a name or a block. -/
def constValue : Reader Unit := do
  let ts ← tokens
  match ts with
  | .literal _ _ :: rest => setTokens rest
  | .mark _ _ _ :: .literal _ _ :: rest =>
    if beginsLiteral ts then setTokens rest else expected []
  | _ =>
    if beginsLiteral ts || beginsName ts then setTokens (ts.drop 1)
    else if beginsGroup .brace ts then skipGroup .brace
    else expected []

def bounds (g : TypeGrammar) (rules : BoundRules) (stop : Reader Bool) : Reader Unit :=
  discard (joined stop (g.bound rules))

def closesArguments : Reader Bool := peekMark ">"

/-- One argument between angle brackets. -/
def argument (g : TypeGrammar) : Reader GenericArg := do
  let start ← tokens
  if beginsLifetime start && !beginsMark "+" (afterOne start) then
    let name ← lifetime
    return .other ("'" ++ name)
  if beginsLiteral start || beginsGroup .brace start then
    constValue
    let rest ← tokens
    return .other (TokenText.ofValue (start.take (start.length - rest.length)))
  let t ← g.type true
  match t with
  | .path false [_] =>
    if ← mark? "=" then
      if ← peek fun ts => beginsLiteral ts || beginsGroup .brace ts then constValue
      else discard (g.type true)
      return .other (← textSince start)
    else if ← mark? ":" then
      bounds g ⟨false, true⟩ (do return (← peekMark ",") || (← closesArguments))
      return .other (← textSince start)
    else return .type t
  | _ => return .type t

/-- Arguments in angle brackets, with `::` before them if need be. -/
def arguments (g : TypeGrammar) : Reader (List GenericArg) := do
  discard (mark? "::")
  mark "<"
  let args ← separated "," closesArguments (argument g)
  mark ">"
  return args

def beginsArguments (ts : List TokenTree) : Bool :=
  (beginsMark "<" ts && !beginsMark "<=" ts && !beginsMark "<<=" ts) ||
    (beginsMark "::" ts && beginsMark "<" (ts.drop 2))

def segment (g : TypeGrammar) : Reader Segment := do
  if ← peek beginsAnchor then return .mk (← anyWord) none
  let n ← if ← peekWord "Self" then anyWord else name
  if ← peek beginsArguments then return .mk n (some (← arguments g)) else return .mk n none

def segments (g : TypeGrammar) (more : Reader Bool) : Reader (List Segment) := do
  let first ← segment g
  let rest ← whileHolds more (do mark "::"; segment g)
  return first :: rest

/-- A path; `::` before a parenthesis does not belong to it. -/
def path (g : TypeGrammar) : Reader (Bool × List Segment) := do
  let rooted ← mark? "::"
  let found ← segments g
    (peek fun ts => beginsMark "::" ts && !beginsGroup .parenthesis (ts.drop 2))
  return (rooted, found)

/-- A path that begins inside a type: `<T as Trait>::Name`. -/
def qualifiedPath (g : TypeGrammar) : Reader Unit := do
  mark "<"
  discard (g.type true)
  if ← word? "as" then discard (path g)
  mark ">"
  mark "::"
  discard (segments g (peekMark "::"))

def result (g : TypeGrammar) (plus : Bool) : Reader Unit := do
  if ← mark? "->" then discard (g.type plus)

/-- Lifetimes and their bounds, up to a comma, a closing mark or the given stop. -/
def lifetimeBounds (stop : Reader Bool) : Reader Unit := discard (joined stop lifetime)

def endsParameter : Reader Bool := do
  return (← atEnd) || (← peekMark ",") || (← peekMark ">")

def lifetimeParameter : Reader Unit := do
  discard lifetime
  if ← mark? ":" then lifetimeBounds endsParameter

def typeParameter (g : TypeGrammar) : Reader Unit := do
  discard name
  if ← mark? ":" then
    bounds g ⟨false, true⟩ (do return (← endsParameter) || (← peekMark "="))
  if ← mark? "=" then discard (g.type true)

def constParameter (g : TypeGrammar) : Reader Unit := do
  word "const"
  discard name
  mark ":"
  discard (g.type true)
  if ← mark? "=" then constValue

/-- The lifetimes that `for` binds. -/
def binder? (g : TypeGrammar) : Reader Bool := do
  if !(← word? "for") then return false
  mark "<"
  discard <| separated "," closesArguments do
    if ← peek beginsName then typeParameter g
    else if ← peek beginsLifetime then lifetimeParameter
    else if ← peekWord "const" then constParameter g
    else expected ["identifier", "lifetime", quoted "const"]
  mark ">"
  return true

/-- The arguments of a function trait, and its result. -/
def callArguments (g : TypeGrammar) : Reader Unit := do
  discard (inGroup .parenthesis (commaList (g.type true)))
  result g false

/-- A trait among bounds, without the parentheses that may stand around it. -/
def traitBound (g : TypeGrammar) (rules : BoundRules) : Reader Unit := do
  let place ← here
  let bound ← binder? g
  if ← peek (beginsGroup .bracket) then
    let bracket ← here
    inGroup .bracket (word "const")
    if !rules.constness then throw ⟨bracket, .rule "`[const]` is not allowed here"⟩
  else if ← peekWord "const" then
    let place ← here
    word "const"
    if !rules.constness then throw ⟨place, .rule "`const` is not allowed here"⟩
  let relaxed ← mark? "?"
  if relaxed && !bound then discard (binder? g)
  let (_, found) ← path g
  let plain := (found.getLast?.map Segment.isPlain).getD false
  if plain then
    if ← peek (beginsGroup .parenthesis) then callArguments g
    else if ← peek fun ts => beginsMark "::" ts && beginsGroup .parenthesis (ts.drop 2) then
      mark "::"
      callArguments g
  if relaxed && bound then
    throw ⟨place, .rule "`for<...>` binder not allowed with `?` trait polarity modifier"⟩

def capture : Reader Unit := do
  word "use"
  mark "<"
  discard <| separated "," closesArguments do
    if ← peek beginsLifetime then discard lifetime
    else if ← peek fun ts => beginsName ts || beginsWord "Self" ts then discard anyWord
    else expected ["lifetime", "identifier", quoted "Self"]
  mark ">"

/-- One bound of a parameter, trait object or opaque type. -/
def readBound (g : TypeGrammar) (rules : BoundRules) : Reader BoundKind := do
  if ← peek beginsLifetime then
    discard lifetime
    return .lifetime
  if ← peekWord "use" then
    let place ← here
    capture
    if !rules.capture then
      throw ⟨place, .rule "`use<...>` precise capturing syntax is not allowed here"⟩
    return .capture
  if ← peek (beginsGroup .parenthesis) then inGroup .parenthesis (traitBound g rules)
  else traitBound g rules
  return .trait

/-- Bounds joined by `+`, at least one of them a trait. -/
def boundList (g : TypeGrammar) (rules : BoundRules) (plus : Bool) (place : Position)
    (missing : String) : Reader Unit := do
  let first ← g.bound rules
  let more : Reader Bool := do return plus && (← mark? "+") && (← peek (beginsBound rules.constness))
  let rest ← whileHolds more (g.bound rules)
  if !(first :: rest).contains .trait then throw ⟨place, .rule missing⟩

def objectBounds (g : TypeGrammar) (plus : Bool) (place : Position) : Reader Unit :=
  boundList g ⟨false, false⟩ plus place "at least one trait is required for an object type"

/-- What `+` adds to a type that is a trait. -/
def furtherBounds (g : TypeGrammar) : Reader Unit := do
  discard <| whileHolds (do return (← mark? "+") && (← peek (beginsBound false)))
    (g.bound ⟨false, false⟩)

def convention? : Reader Unit := do
  if ← word? "extern" then
    match ← tokens with
    | .literal t _ :: rest => if (Quoted.text? t).isSome then setTokens rest
    | _ => pure ()

def functionArgument (g : TypeGrammar) : Reader Unit := do
  let ts ← tokens
  let named := (beginsName ts || beginsWord "_" ts || beginsWord "self" ts) &&
    beginsMark ":" (ts.drop 1) && !beginsMark "::" (ts.drop 1)
  if named then
    discard anyWord
    mark ":"
  if ← mark? "..." then pure () else discard (g.type true)

def functionType (g : TypeGrammar) : Reader Unit := do
  discard (binder? g)
  discard (word? "unsafe")
  convention?
  word "fn"
  discard (inGroup .parenthesis (commaList do discard Attribute.outer; functionArgument g))
  result g false

/-- What parentheses hold: nothing, types with a comma, one type, or a bound that is no type. -/
inductive Parenthesized where
  | whole (t : TypeExpr)
  | single (t : TypeExpr)
  | bound

def parenthesized (g : TypeGrammar) : Reader Parenthesized := do
  if ← atEnd then return .whole (.tuple [])
  let start ← tokens
  if beginsLifetime start then
    objectBounds g true (← here)
    return .whole (.paren (← shownSince start))
  if beginsMark "?" start then
    traitBound g ⟨false, false⟩
    return .bound
  let first ← g.type true
  if ← mark? "," then return .whole (.tuple (first :: (← commaList (g.type true))))
  return .single first

def parenthesizedType (g : TypeGrammar) (plus : Bool) (start : List TokenTree) :
    Reader TypeExpr := do
  match ← inGroup .parenthesis (parenthesized g) with
  | .whole t => return t
  | .bound =>
    furtherBounds g
    shownSince start
  | .single t =>
    match t with
    | .path _ _ =>
      if plus && (← peekMark "+") then
        furtherBounds g
        shownSince start
      else return .paren t
    | _ => return .paren t

/-- A type that begins with a path: the path, a macro, or the first bound of a trait object. -/
def pathType (g : TypeGrammar) (plus bound : Bool) (start : List TokenTree) : Reader TypeExpr := do
  if ← peekMark "<" then
    qualifiedPath g
    return ← shownSince start
  let (rooted, found) ← path g
  if found.all Segment.isBare && (← peek fun ts => beginsMark "!" ts && !beginsMark "!=" ts) then
    mark "!"
    match ← tokens with
    | .group _ _ _ _ :: rest => setTokens rest
    | _ => expected ["delimiter"]
    return ← shownSince start
  if bound || (plus && (← peekMark "+")) then
    if plus then furtherBounds g
    return ← shownSince start
  return .path rooted found

def pointerType (g : TypeGrammar) : Reader Unit := do
  mark "*"
  if !((← word? "const") || (← word? "mut")) then expected [quoted "const", quoted "mut"]
  discard (g.type false)

def bracketType (g : TypeGrammar) (start : List TokenTree) : Reader TypeExpr := do
  let slice? ← inGroup .bracket do
    let item ← g.type true
    if ← mark? ";" then
      setTokens []
      return none
    return some item
  match slice? with
  | some item => return .slice item
  | none => shownSince start

def beginsFunction (ts : List TokenTree) : Bool :=
  beginsWord "fn" ts || beginsWord "unsafe" ts || beginsWord "extern" ts

def beginsPath (ts : List TokenTree) : Bool :=
  beginsName ts || ["super", "self", "Self", "crate"].any (beginsWord · ts)

/-- What may come after `for<…>` at the front of a type. -/
def afterBinder : List String := ["identifier"] ++
  ["fn", "unsafe", "extern", "super", "self", "Self", "crate"].map quoted

def beginnings : List String :=
  [quoted "for", "parentheses", quoted "fn", quoted "unsafe", quoted "extern", "identifier",
    quoted "::", quoted "<", quoted "dyn", "square brackets", quoted "*", quoted "&", quoted "!",
    quoted "impl", quoted "_", "lifetime"]

/-- One type. Where `plus` does not hold, a `+` after a bound ends the type. -/
def readType (g : TypeGrammar) (plus : Bool) : Reader TypeExpr := do
  let start ← tokens
  let bound ← binder? g
  let ts ← tokens
  if bound && (!(beginsPath ts || beginsFunction ts) || beginsWord "dyn" ts) then
    expected afterBinder
  if beginsGroup .parenthesis ts then parenthesizedType g plus start
  else if beginsFunction ts then
    functionType g
    shownSince start
  else if beginsPath ts || beginsMark "::" ts || beginsMark "<" ts then pathType g plus bound start
  else if beginsWord "dyn" ts then
    let place ← here
    word "dyn"
    discard (mark? "*")
    objectBounds g plus place
    shownSince start
  else if beginsGroup .bracket ts then bracketType g start
  else if beginsMark "*" ts then
    pointerType g
    shownSince start
  else if beginsMark "&" ts then
    mark "&"
    let named ← if ← peek beginsLifetime then some <$> lifetime else pure none
    let mutable ← word? "mut"
    return .reference named mutable (← g.type false)
  else if beginsMark "!" ts && !beginsMark "=" ts then
    mark "!"
    shownSince start
  else if beginsWord "impl" ts then
    let place ← here
    word "impl"
    boundList g ⟨true, true⟩ plus place "at least one trait must be specified"
    shownSince start
  else if beginsWord "_" ts then
    discard anyWord
    shownSince start
  else if beginsLifetime ts then
    objectBounds g true (← here)
    shownSince start
  else expected beginnings

/-- The grammar of types that nest no deeper than the bound. -/
def within : Nat → TypeGrammar
  | 0 => ⟨fun _ => expected [], fun _ => expected []⟩
  | depth + 1 =>
    ⟨fun plus => readType (within depth) plus, fun rules => readBound (within depth) rules⟩

/-- Each level takes a token or enters a group, so the tokens bound the depth. -/
def ofTokens (ts : List TokenTree) : TypeGrammar := within (TokenTree.weightAll ts + 2)

end TypeGrammar

namespace TypeExpr

def reader : Reader TypeExpr := do (TypeGrammar.ofTokens (← tokens)).type true

def ofText? (text : String) : Except SyntaxFault TypeExpr := reader.runText text.toList

end TypeExpr
end InlineIcons.Source
