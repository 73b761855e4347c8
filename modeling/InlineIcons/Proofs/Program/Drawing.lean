import InlineIcons.Proofs.Program.Dispatch

/-! What the statements of an arm draw: the calls that reach the builder, for any extras of the component. -/
namespace InlineIcons

/-- A call that reaches the builder. -/
structure Call where
  method : String
  args : List String
  deriving DecidableEq, Repr

/-- What stands around a statement: the component's own maps by property, the map bound as the extras, and
the names bound to texts. -/
structure Bindings where
  fields : String → Option (List (String × String))
  extras : List (String × String)
  names : List (String × String)

def Argument.value (b : Bindings) : Argument → String
  | .text value => value
  | .name word => (b.names.lookup word).getD ""

def Statement.bind (b : Bindings) : Statement → Bindings
  | .bindExtras property => { b with extras := (b.fields property).getD [] }
  | .call _ _ | .whenExtras _ _ | .eachExtra _ | .unlessNamed _ _ | .whenExtra _ _ => b

mutual
def Statement.calls (b : Bindings) : Statement → List Call
  | .call method args => [⟨method,args.map (·.value b)⟩]
  | .bindExtras _ => []
  | .whenExtras property body =>
    match b.fields property with
    | some extras => callsAll { b with extras } body
    | none => []
  | .eachExtra body =>
    b.extras.flatMap fun pair =>
      callsAll { b with names := ("name",pair.1) :: ("value",pair.2) :: b.names } body
  | .unlessNamed key body => if b.names.lookup "name" = some key then [] else callsAll b body
  | .whenExtra key body =>
    match b.extras.lookup key with
    | some title => callsAll { b with names := ("title",title) :: b.names } body
    | none => []

def Statement.callsAll (b : Bindings) : List Statement → List Call
  | [] => []
  | s :: rest => calls b s ++ callsAll (bind b s) rest
end

/-- Every extra but the title as an attribute, then the title as an element. -/
def extrasCalls (extras : List (String × String)) : List Call :=
  (extras.filter (·.1 ≠ "title")).map (fun pair => ⟨"add_attribute",[pair.1,pair.2]⟩) ++
    match extras.lookup "title" with
    | some title => [⟨"open_element",["title"]⟩,⟨"add_content",[title]⟩,⟨"close_element",[]⟩]
    | none => []

namespace Definition

theorem calls_eachExtra (b : Bindings) :
    (Statement.eachExtra [.unlessNamed "title" [.call "add_attribute" [.name "name",.name "value"]]]).calls b =
      (b.extras.filter (·.1 ≠ "title")).map fun pair => ⟨"add_attribute",[pair.1,pair.2]⟩ := by
  have one : ∀ pair : String × String,
      Statement.callsAll { b with names := ("name",pair.1) :: ("value",pair.2) :: b.names }
        [.unlessNamed "title" [.call "add_attribute" [.name "name",.name "value"]]] =
      if pair.1 = "title" then [] else [⟨"add_attribute",[pair.1,pair.2]⟩] := by
    intro pair
    by_cases title : pair.1 = "title" <;>
      simp [Statement.callsAll,Statement.calls,title,Argument.value,List.lookup_cons]
  simp only [Statement.calls,one]
  induction b.extras with
  | nil => rfl
  | cons pair extras ih =>
    rw [List.flatMap_cons,ih]
    by_cases title : pair.1 = "title" <;> simp [title]

theorem callsAll_extrasDrawing (b : Bindings) (rest : List Statement) :
    Statement.callsAll b (extrasDrawing ++ rest) = extrasCalls b.extras ++ Statement.callsAll b rest := by
  have title : (Statement.whenExtra "title" [.call "open_element" [.text "title"],
      .call "add_content" [.name "title"],.call "close_element" []]).calls b =
      match b.extras.lookup "title" with
      | some title => [⟨"open_element",["title"]⟩,⟨"add_content",[title]⟩,⟨"close_element",[]⟩]
      | none => [] := by
    rw [Statement.calls]
    cases b.extras.lookup "title" <;> rfl
  rw [extrasDrawing,List.cons_append,Statement.callsAll,calls_eachExtra,Statement.bind,List.cons_append,
    Statement.callsAll,title,Statement.bind,List.nil_append,extrasCalls,List.append_assoc]

theorem callsAll_attributes (b : Bindings) (attributes : List (String × String)) (rest : List Statement) :
    Statement.callsAll b (attributes.map (fun pair =>
        .call "add_attribute" [.text pair.1,.text pair.2]) ++ rest) =
      attributes.map (fun pair => ⟨"add_attribute",[pair.1,pair.2]⟩) ++ Statement.callsAll b rest := by
  induction attributes with
  | nil => rfl
  | cons pair attributes ih =>
    rw [List.map_cons,List.cons_append,Statement.callsAll,Statement.bind,ih,Statement.calls]
    rfl

/-- An arm opens the element, adds the icon's attributes in order, then the extras the component has, and
closes the element after the icon's body. -/
theorem callsAll_drawing (d : Definition) (a : Asset) (b : Bindings) :
    Statement.callsAll b (d.drawing a) =
      ⟨"open_element",["svg"]⟩ :: a.attributes.map (fun pair => ⟨"add_attribute",[pair.1,pair.2]⟩) ++
        ((b.fields d.extrasProperty).map extrasCalls).getD [] ++
        [⟨"add_markup_content",[a.body]⟩,⟨"close_element",[]⟩] := by
  have ended : ∀ b : Bindings, Statement.callsAll b
      [.call "add_markup_content" [.text a.body],.call "close_element" []] =
        [⟨"add_markup_content",[a.body]⟩,⟨"close_element",[]⟩] := fun _ => rfl
  have opened : (Statement.call "open_element" [.text "svg"]).calls b = [⟨"open_element",["svg"]⟩] := rfl
  rw [drawing,List.append_assoc,List.cons_append,Statement.callsAll,Statement.bind,opened,callsAll_attributes]
  have extras : Statement.callsAll b ((if d.extrasOptional then [.whenExtras d.extrasProperty extrasDrawing]
      else .bindExtras d.extrasProperty :: extrasDrawing) ++
        [.call "add_markup_content" [.text a.body],.call "close_element" []]) =
      ((b.fields d.extrasProperty).map extrasCalls).getD [] ++
        [⟨"add_markup_content",[a.body]⟩,⟨"close_element",[]⟩] := by
    cases d.extrasOptional with
    | true =>
      rw [if_pos rfl,List.singleton_append,Statement.callsAll,Statement.bind,ended,Statement.calls]
      cases b.fields d.extrasProperty with
      | none => rfl
      | some extras =>
        have inner := callsAll_extrasDrawing { b with extras } []
        rw [List.append_nil] at inner
        simp [inner,Statement.callsAll]
    | false =>
      rw [if_neg Bool.false_ne_true,List.cons_append,Statement.callsAll,Statement.bind,Statement.calls,
        callsAll_extrasDrawing,ended]
      cases b.fields d.extrasProperty <;> rfl
  rw [extras]
  simp

/-- So an arm that is read in the unit of a definition draws the icon of its member, for any extras. -/
theorem calls_of_generate {d : Definition} {options : EmitOptions} (named : d.Named) (paths : options.Named)
    (index : AssetIndex) : ∃ dispatch, (d.generate index options).source.bind Dispatch.read? = some dispatch ∧
      ∀ arm ∈ dispatch.arms, ∃ a, index.get? arm.member = some a ∧ ∀ b : Bindings, Statement.callsAll b arm.body =
        ⟨"open_element",["svg"]⟩ :: a.attributes.map (fun pair => ⟨"add_attribute",[pair.1,pair.2]⟩) ++
          ((b.fields d.extrasProperty).map extrasCalls).getD [] ++
          [⟨"add_markup_content",[a.body]⟩,⟨"close_element",[]⟩] := by
  refine ⟨_,read?_generate named paths index,fun arm member => ?_⟩
  obtain ⟨m,_,made⟩ := List.mem_filterMap.mp member
  obtain ⟨a,found,rfl⟩ := Option.map_eq_some_iff.mp made
  exact ⟨a,found,callsAll_drawing d a⟩

end Definition
end InlineIcons
