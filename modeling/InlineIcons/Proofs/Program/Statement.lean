import InlineIcons.Proofs.Literal
import InlineIcons.Proofs.Program.Block

/-! The statements of a dispatch read back: calls of the builder, the extras they may draw on, and the
headers under which they stand. String literals are read by the rules of the program's language. -/
namespace InlineIcons

def isNameChar (c : Char) : Bool := Text.isWordContinue c || c = '#'

def isPathChar (c : Char) : Bool := isNameChar c || [':','<','>',',','\''].contains c

def IsName (s : String) : Prop := ∀ c ∈ s.toList, isNameChar c

def IsPath (s : String) : Prop := ∀ c ∈ s.toList, isPathChar c

instance (s : String) : Decidable (IsName s) := List.decidableBAll _ s.toList

instance (s : String) : Decidable (IsPath s) := List.decidableBAll _ s.toList

theorem IsName.isPath {s : String} (named : IsName s) : IsPath s :=
  fun c member => by rw [isPathChar,named c member,Bool.true_or]

theorem IsPath.append {s t : String} (first : IsPath s) (second : IsPath t) : IsPath (s ++ t) := by
  intro c member
  rw [String.toList_append] at member
  exact (List.mem_append.mp member).elim (first c) (second c)

theorem IsPath.newline_not_mem {s : String} (path : IsPath s) : '\n' ∉ s.toList :=
  fun member => absurd (path _ member) (by decide)

theorem Literal.newline_not_mem_quote (s : String) : '\n' ∉ (Literal.quote s).toList := by
  intro member
  rw [Literal.quote,String.toList_ofList] at member
  exact absurd (Literal.isControl_of_mem_quoteChars member) (by decide)

namespace Reading

def after? (expected : String) (cs : List Char) : Option (List Char) :=
  if expected.toList <+: cs then some (cs.drop expected.toList.length) else none

def word (p : Char → Bool) (cs : List Char) : String × List Char :=
  (.ofList (cs.takeWhile p),cs.dropWhile p)

def literal? : List Char → Option (String × List Char)
  | '"' :: cs => (Source.Quoted.read? .text cs).map fun (n,text) => (.ofList text,cs.drop n)
  | _ => none

theorem after?_append (expected : String) (cs : List Char) :
    after? expected (expected.toList ++ cs) = some cs := by simp [after?]

theorem word_append {p : Char → Bool} {s : String} (inside : ∀ c ∈ s.toList, p c) {c : Char} (stop : p c = false)
    (cs : List Char) : word p (s.toList ++ c :: cs) = (s,c :: cs) := by
  rw [word,List.takeWhile_append_of_pos inside,List.dropWhile_append_of_pos inside]
  simp [stop]

theorem word_toList {p : Char → Bool} {s : String} (inside : ∀ c ∈ s.toList, p c) : word p s.toList = (s,[]) := by
  rw [word,← List.append_nil s.toList,List.takeWhile_append_of_pos inside,List.dropWhile_append_of_pos inside]
  simp

theorem literal?_append (s : String) (cs : List Char) :
    literal? ((Literal.quote s).toList ++ cs) = some (s,cs) := by
  have shape : (Literal.quote s).toList ++ cs = '"' :: (s.toList.flatMap Literal.escapeChar ++ '"' :: cs) := by
    simp [Literal.quote,Literal.quoteChars]
  have last : (s.toList.flatMap Literal.escapeChar ++ '"' :: cs).drop
      ((s.toList.flatMap Literal.escapeChar).length + 1) = cs := by
    rw [← List.singleton_append,← List.append_assoc]
    exact List.drop_left' (by simp)
  rw [shape,literal?,Literal.read?_escaped,Option.map_some]
  dsimp only
  rw [last,String.ofList_toList]

end Reading

inductive Argument where
  | text (value : String)
  | name (name : String)
  deriving DecidableEq, Repr

/-- A statement of a generated arm. The extras are bound for what follows, or for a body if the component
has some; an extra is bound to `name` and `value`, or to `title`, for a body. -/
inductive Statement where
  | call (method : String) (args : List Argument)
  | bindExtras (property : String)
  | whenExtras (property : String) (body : List Statement)
  | eachExtra (body : List Statement)
  | unlessNamed (key : String) (body : List Statement)
  | whenExtra (key : String) (body : List Statement)
  deriving Repr

namespace Reading

def argument? (cs : List Char) : Option (Argument × List Char) :=
  match literal? cs with
  | some (s,cs) => some (.text s,cs)
  | none =>
    match word isNameChar cs with
    | ("",_) => none
    | (s,cs) => some (.name s,cs)

def arguments? : Nat → List Char → Option (List Argument)
  | 0,_ => none
  | bound + 1,cs =>
    match argument? cs with
    | none => none
    | some (a,cs) =>
      match after? ", " cs with
      | some cs => (arguments? bound cs).map (a :: ·)
      | none => if cs = ");".toList then some [a] else none

def call? (cs : List Char) : Option Statement := do
  let cs ← after? "builder." cs
  let (method,cs) := word isNameChar cs
  let cs ← after? "(" cs
  if cs = ");".toList then return .call method []
  return .call method (← arguments? cs.length cs)

def binding? (cs : List Char) : Option Statement := do
  let cs ← after? "let extras = &self." cs
  let (property,cs) := word isPathChar cs
  if cs = ";".toList then some (.bindExtras property) else none

def eachExtra? (cs : List Char) : Option (List Statement → Statement) :=
  if cs = "for (name, value) in extras.iter()".toList then some .eachExtra else none

def unlessNamed? (cs : List Char) : Option (List Statement → Statement) := do
  let (key,cs) ← literal? (← after? "if *name != " cs)
  if cs = [] then some (.unlessNamed key) else none

def whenExtra? (cs : List Char) : Option (List Statement → Statement) := do
  let (key,cs) ← literal? (← after? "if let Some(title) = extras.get(" cs)
  if cs = ")".toList then some (.whenExtra key) else none

def whenExtras? (cs : List Char) : Option (List Statement → Statement) := do
  let (property,cs) := word isPathChar (← after? "if let Some(extras) = &self." cs)
  if cs = [] then some (.whenExtras property) else none

def header? (cs : List Char) : Option (List Statement → Statement) :=
  (eachExtra? cs).or ((unlessNamed? cs).or ((whenExtra? cs).or (whenExtras? cs)))

theorem call?_append {method : String} (named : IsName method) (cs : List Char) :
    call? ("builder.".toList ++ (method.toList ++ '(' :: cs)) =
      if cs = ");".toList then some (.call method [])
      else (arguments? cs.length cs).map (.call method ·) := by
  have opened : after? "(" ('(' :: cs) = some cs := after?_append "(" cs
  simp only [call?,after?_append,word_append named (c := '(') (by decide),opened,Option.bind_eq_bind,
    Option.bind_some]
  split
  · rfl
  · cases arguments? cs.length cs <;> rfl

theorem arguments?_last {cs : List Char} {a : Argument} (read : argument? cs = some (a,");".toList))
    {bound : Nat} (enough : 1 ≤ bound) : arguments? bound cs = some [a] := by
  obtain ⟨bound,rfl⟩ := Nat.exists_eq_add_of_le' enough
  have closed : after? ", " ");".toList = none := by decide
  simp only [arguments?,read,closed,if_true]

theorem arguments?_more {cs rest : List Char} {a : Argument} {as : List Argument}
    (read : argument? cs = some (a,", ".toList ++ rest)) {bound : Nat}
    (more : arguments? bound rest = some as) : arguments? (bound + 1) cs = some (a :: as) := by
  simp only [arguments?,read,after?_append,more,Option.map_some]

theorem argument?_quote (s : String) (cs : List Char) :
    argument? ((Literal.quote s).toList ++ cs) = some (.text s,cs) := by
  rw [argument?,literal?_append]

theorem call?_one {method : String} (named : IsName method) {cs : List Char} {a : Argument}
    (read : argument? (cs ++ ");".toList) = some (a,");".toList)) (filled : cs ≠ []) :
    call? ("builder.".toList ++ (method.toList ++ '(' :: (cs ++ ");".toList))) =
      some (.call method [a]) := by
  have more : cs ++ ");".toList ≠ ");".toList := by simpa using filled
  have enough : 1 ≤ (cs ++ ");".toList).length := by simp
  rw [call?_append named,if_neg more,arguments?_last read enough]
  rfl

theorem call?_two {method : String} (named : IsName method) {cs ds : List Char} {a b : Argument}
    (first : argument? (cs ++ (", ".toList ++ (ds ++ ");".toList))) =
      some (a,", ".toList ++ (ds ++ ");".toList)))
    (second : argument? (ds ++ ");".toList) = some (b,");".toList)) :
    call? ("builder.".toList ++ (method.toList ++ '(' :: (cs ++ (", ".toList ++ (ds ++ ");".toList))))) =
      some (.call method [a,b]) := by
  have more : cs ++ (", ".toList ++ (ds ++ ");".toList)) ≠ ");".toList := by
    intro same
    have := congrArg List.length same
    simp at this
    omega
  rw [call?_append named,if_neg more]
  obtain ⟨bound,counted⟩ : ∃ bound, (cs ++ (", ".toList ++ (ds ++ ");".toList))).length = bound + 1 + 1 :=
    ⟨cs.length + ds.length + 2,by simp; omega⟩
  rw [counted,arguments?_more first (arguments?_last second (by omega))]
  rfl

theorem binding?_append {property : String} (named : IsPath property) :
    binding? ("let extras = &self.".toList ++ (property.toList ++ ";".toList)) =
      some (.bindExtras property) := by
  have ended : word isPathChar (property.toList ++ ";".toList) = (property,";".toList) :=
    word_append named (by decide) []
  simp only [binding?,after?_append,Option.bind_eq_bind,Option.bind_some,ended,if_true]

theorem header?_eachExtra : header? "for (name, value) in extras.iter()".toList = some .eachExtra := by
  rw [header?,eachExtra?,if_pos rfl,Option.some_or]

theorem header?_unlessNamed (key : String) :
    header? ("if *name != ".toList ++ (Literal.quote key).toList) = some (.unlessNamed key) := by
  have other : eachExtra? ("if *name != ".toList ++ (Literal.quote key).toList) = none := by simp [eachExtra?]
  have quoted : literal? (Literal.quote key).toList = some (key,[]) := by
    simpa using literal?_append key []
  have read : unlessNamed? ("if *name != ".toList ++ (Literal.quote key).toList) = some (.unlessNamed key) := by
    simp only [unlessNamed?,after?_append,quoted,Option.bind_eq_bind,Option.bind_some,if_true]
  rw [header?,other,read,Option.none_or,Option.some_or]

theorem header?_whenExtra (key : String) :
    header? ("if let Some(title) = extras.get(".toList ++ ((Literal.quote key).toList ++ ")".toList)) =
      some (.whenExtra key) := by
  have each : eachExtra? ("if let Some(title) = extras.get(".toList ++
      ((Literal.quote key).toList ++ ")".toList)) = none := by simp [eachExtra?]
  have other : unlessNamed? ("if let Some(title) = extras.get(".toList ++
      ((Literal.quote key).toList ++ ")".toList)) = none := by simp [unlessNamed?,after?]
  have read : whenExtra? ("if let Some(title) = extras.get(".toList ++
      ((Literal.quote key).toList ++ ")".toList)) = some (.whenExtra key) := by
    simp only [whenExtra?,after?_append,literal?_append,Option.bind_eq_bind,Option.bind_some,if_true]
  rw [header?,each,other,read,Option.none_or,Option.none_or,Option.some_or]

theorem header?_whenExtras {property : String} (named : IsPath property) :
    header? ("if let Some(extras) = &self.".toList ++ property.toList) = some (.whenExtras property) := by
  have each : eachExtra? ("if let Some(extras) = &self.".toList ++ property.toList) = none := by
    simp [eachExtra?]
  have other : unlessNamed? ("if let Some(extras) = &self.".toList ++ property.toList) = none := by
    simp [unlessNamed?,after?]
  have whenExtra : whenExtra? ("if let Some(extras) = &self.".toList ++ property.toList) = none := by
    simp [whenExtra?,after?]
  have read : whenExtras? ("if let Some(extras) = &self.".toList ++ property.toList) =
      some (.whenExtras property) := by
    simp only [whenExtras?,after?_append,Option.bind_eq_bind,Option.bind_some,word_toList named,if_true]
  rw [header?,each,other,whenExtra,read,Option.none_or,Option.none_or,Option.none_or]

end Reading

mutual
def Statement.read? : Block → Option Statement
  | .line text => (Reading.call? text).or (Reading.binding? text)
  | .scope header body =>
    match Reading.header? header,readAll? body with
    | some make,some statements => some (make statements)
    | _,_ => none

def Statement.readAll? : List Block → Option (List Statement)
  | [] => some []
  | b :: bs =>
    match read? b,readAll? bs with
    | some s,some rest => some (s :: rest)
    | _,_ => none
end

theorem Statement.readAll?_append {bs cs : List Block} {ss ts : List Statement}
    (first : readAll? bs = some ss) (second : readAll? cs = some ts) :
    readAll? (bs ++ cs) = some (ss ++ ts) := by
  induction bs generalizing ss with
  | nil =>
    rw [readAll?,Option.some.injEq] at first
    rw [← first]
    exact second
  | cons b bs ih =>
    rw [readAll?] at first
    split at first
    · next s rest one more =>
      rw [Option.some.injEq] at first
      rw [← first,List.cons_append,readAll?,one,ih more]
      rfl
    · cases first

end InlineIcons
