import InlineIcons.Proofs.Source.Directive

/-! What is found in a tree of items. An item that is no module yields one thing or nothing, whatever stands around it;
of the modules about it only their names matter. -/
namespace InlineIcons.Source

/-- An item that is no module, with the modules that it stands in, the outermost first. -/
inductive Leaf where
  | struct (modules : List String) (i : StructItem)
  | enum (modules : List String) (e : EnumItem)
  | other

namespace Item

mutual
def leaves (modules : List String) : Item → List Leaf
  | .struct i => [.struct modules i]
  | .enum e => [.enum modules e]
  | .nested name items => leavesAll (modules ++ [name]) items
  | .other => [.other]

def leavesAll (modules : List String) : List Item → List Leaf
  | [] => []
  | item :: items => leaves modules item ++ leavesAll modules items
end

/-- Items in a module, and the same without one struct, which stands in modules at `place`. -/
inductive Without (place : List String) (i : StructItem) : List String → List Item → List Item → Prop
  | here (items : List Item) : Without place i place (.struct i :: items) items
  | behind {modules : List String} (item : Item) {items items' : List Item}
    (rest : Without place i modules items items') : Without place i modules (item :: items) (item :: items')
  | inside {modules : List String} {name : String} {inner inner' : List Item}
    (below : Without place i (modules ++ [name]) inner inner') (items : List Item) :
    Without place i modules (.nested name inner :: items) (.nested name inner' :: items)

variable {place modules : List String} {i : StructItem} {items items' : List Item}

/-- However deep the struct stands, one leaf is lost with it. -/
theorem Without.leaves (without : Without place i modules items items') : ∃ before after,
    leavesAll modules items = before ++ .struct place i :: after ∧ leavesAll modules items' = before ++ after := by
  induction without with
  | here items => exact ⟨[],leavesAll place items,rfl,rfl⟩
  | @behind modules item items items' rest ih =>
    obtain ⟨before,after,whole,left⟩ := ih
    refine ⟨item.leaves modules ++ before,after,?_,?_⟩
    · rw [leavesAll,whole,List.append_assoc]
    · rw [leavesAll,left,List.append_assoc]
  | @inside modules name inner inner' below items ih =>
    obtain ⟨before,after,whole,left⟩ := ih
    refine ⟨before,after ++ leavesAll modules items,?_,?_⟩
    · rw [leavesAll,Item.leaves,whole,List.append_assoc,List.cons_append]
    · rw [leavesAll,Item.leaves,left,List.append_assoc]

end Item

namespace Findings

/-- Findings one behind the other. -/
def concat (found : List Findings) : Findings :=
  ⟨found.flatMap components,found.flatMap enums,found.flatMap errors⟩

theorem concat_append (xs ys : List Findings) : concat (xs ++ ys) = concat xs ++ concat ys := by
  simp only [concat,List.flatMap_append]
  rfl

theorem concat_single (f : Findings) : concat [f] = f := by
  simp [concat]

/-- Where one of the findings is an error, leaving it out costs that error alone. -/
theorem concat_of_error (before after : List Findings) (e : ParseError) :
    (concat (before ++ after)).components = (concat (before ++ ⟨[],[],[e]⟩ :: after)).components ∧
      (concat (before ++ after)).enums = (concat (before ++ ⟨[],[],[e]⟩ :: after)).enums ∧
      (concat (before ++ ⟨[],[],[e]⟩ :: after)).errors = before.flatMap errors ++ e :: after.flatMap errors ∧
      (concat (before ++ after)).errors = before.flatMap errors ++ after.flatMap errors := by
  simp [concat]

end Findings

/-- The arguments of an attribute are two, and these are the properties that they name. -/
def Attribute.Names (a : Attribute) (kind extras : String) : Prop := ∃ ts closing first second,
  a.args = .list ts closing ∧ DirectiveArgs.Written [first,second] ts ∧ first.property? = some kind ∧
    second.property? = some extras

theorem DirectiveArgs.ofAttribute_ok_iff {a : Attribute} {kind extras : String} :
    ofAttribute a = .ok (kind,extras) ↔ a.Names kind extras := by
  unfold ofAttribute Attribute.Names
  cases a.args with
  | none => simp
  | value => simp
  | list ts closing => simp [read_ok_iff]

def inModules (namespaceName : String) (modules : List String) : String := modules.foldl qualify namespaceName

theorem inModules_concat (namespaceName name : String) (modules : List String) :
    inModules namespaceName (modules ++ [name]) = qualify (inModules namespaceName modules) name :=
  List.foldl_concat ..

namespace Search

variable {s : Search} {namespaceName : String}

/-- A directive is refused if its struct has parameters, or if its arguments are not two names or string literals. -/
def Refuses (s : Search) (i : StructItem) : Prop :=
  ∃ a, s.attribute? i = some a ∧ (i.generic = true ∨ ∀ kind extras, ¬a.Names kind extras)

/-- What a leaf may yield. A variant counts as one with data even if nothing stands in its brackets. -/
inductive Yields (s : Search) (namespaceName : String) : Leaf → Findings → Prop
  | component {modules : List String} {i : StructItem} {a : Attribute} {kind extras : String}
    (marked : s.attribute? i = some a) (plain : i.generic = false) (named : a.Names kind extras) :
    Yields s namespaceName (.struct modules i)
      ⟨[s.component (inModules namespaceName modules) i (a.place.inFile s.file) (kind,extras)],[],[]⟩
  | error {modules : List String} {i : StructItem} {a : Attribute} {message : String}
    (marked : s.attribute? i = some a) (refused : i.generic = true ∨ ∀ kind extras, ¬a.Names kind extras)
    (said : i.generic = true → message = genericRefusal i.name) :
    Yields s namespaceName (.struct modules i) ⟨[],[],[.directive (a.place.inFile s.file) message]⟩
  | unmarked {modules : List String} {i : StructItem} (unmarked : s.attribute? i = none) :
    Yields s namespaceName (.struct modules i) .none
  | enum {modules : List String} {e : EnumItem} (plain : ∀ v ∈ e.variants, v.hasData = false) :
    Yields s namespaceName (.enum modules e)
      ⟨[],[⟨inModules namespaceName modules,e.name,e.variants.map Variant.name⟩],[]⟩
  | filled {modules : List String} {e : EnumItem} {v : Variant} (held : v ∈ e.variants) (filled : v.hasData = true) :
    Yields s namespaceName (.enum modules e) .none
  | other : Yields s namespaceName .other .none

def ofLeaf (s : Search) (namespaceName : String) : Leaf → Findings
  | .struct modules i => s.ofStruct (inModules namespaceName modules) i
  | .enum modules e => ofEnum (inModules namespaceName modules) e
  | .other => .none

theorem yields_ofStruct (s : Search) (namespaceName : String) (modules : List String) (i : StructItem) :
    s.Yields namespaceName (.struct modules i) (s.ofStruct (inModules namespaceName modules) i) := by
  cases marked : s.attribute? i with
  | none =>
    rw [ofStruct,marked]
    exact .unmarked marked
  | some a =>
    simp only [ofStruct,marked,component?]
    cases generic : i.generic with
    | true => exact .error marked (.inl generic) fun _ => rfl
    | false =>
      simp only [Bool.false_eq_true,if_false]
      cases read : DirectiveArgs.ofAttribute a with
      | ok p => exact .component marked generic (DirectiveArgs.ofAttribute_ok_iff.mp read)
      | error fault =>
        have unread : ∀ kind extras, ¬a.Names kind extras := by
          intro kind extras named
          rw [DirectiveArgs.ofAttribute_ok_iff.mpr named] at read
          cases read
        exact .error marked (.inr unread) fun parameters => absurd (generic.symm.trans parameters) Bool.false_ne_true

theorem yields_ofEnum (s : Search) (namespaceName : String) (modules : List String) (e : EnumItem) :
    s.Yields namespaceName (.enum modules e) (ofEnum (inModules namespaceName modules) e) := by
  rw [ofEnum]
  split
  · next data =>
    obtain ⟨v,held,filled⟩ := List.any_eq_true.mp data
    exact .filled held filled
  · next plain => exact .enum (by simpa using plain)

theorem yields_ofLeaf (s : Search) (namespaceName : String) :
    ∀ leaf, s.Yields namespaceName leaf (s.ofLeaf namespaceName leaf)
  | .struct modules i => yields_ofStruct s namespaceName modules i
  | .enum modules e => yields_ofEnum s namespaceName modules e
  | .other => .other

mutual
/-- What is found in an item is what its leaves yield: the namespace that is passed down is that of the modules around
each of them. -/
theorem ofItem_leaves (s : Search) (namespaceName : String) (modules : List String) :
    ∀ item, s.ofItem (inModules namespaceName modules) item =
      .concat ((item.leaves modules).map (s.ofLeaf namespaceName))
  | .struct i => (Findings.concat_single _).symm
  | .enum e => (Findings.concat_single _).symm
  | .nested name items => by rw [ofItem,← inModules_concat,ofItems_leaves,Item.leaves]
  | .other => rfl

theorem ofItems_leaves (s : Search) (namespaceName : String) (modules : List String) :
    ∀ items, s.ofItems (inModules namespaceName modules) items =
      .concat ((Item.leavesAll modules items).map (s.ofLeaf namespaceName))
  | [] => rfl
  | item :: items => by
    rw [ofItems,Item.leavesAll,List.map_append,Findings.concat_append,ofItem_leaves,ofItems_leaves]
end

theorem Refuses.ofStruct {i : StructItem} (refused : s.Refuses i) (modules : List String) :
    ∃ e, s.ofStruct (inModules namespaceName modules) i = ⟨[],[],[e]⟩ := by
  obtain ⟨a,marked,refused⟩ := refused
  have yields := yields_ofStruct s namespaceName modules i
  generalize s.ofStruct (inModules namespaceName modules) i = found at yields ⊢
  cases yields with
  | error => exact ⟨_,rfl⟩
  | unmarked unmarked => exact absurd (unmarked.symm.trans marked) (by simp)
  | component marked' plain named =>
    obtain rfl : a = _ := Option.some.inj (marked.symm.trans marked')
    rcases refused with generic | unread
    · exact absurd (plain.symm.trans generic) Bool.false_ne_true
    · exact absurd named (unread _ _)

/-- Each leaf below items yields by itself, and what is found in the items is this in their order: a component or an
error for a struct with a directive, an enum for one without data, and nothing for other leaves. Where a directive is
refused, leaving out its struct removes the error and nothing else. -/
theorem ofItems_yields (s : Search) (namespaceName : String) (items : List Item) :
    (∃ yielded, List.Forall₂ (s.Yields namespaceName) (Item.leavesAll [] items) yielded ∧
      s.ofItems namespaceName items = .concat yielded) ∧
    ∀ place i items', s.Refuses i → Item.Without place i [] items items' →
      (s.ofItems namespaceName items').components = (s.ofItems namespaceName items).components ∧
      (s.ofItems namespaceName items').enums = (s.ofItems namespaceName items).enums ∧
      ∃ e before after, s.ofStruct (inModules namespaceName place) i = ⟨[],[],[e]⟩ ∧
        (s.ofItems namespaceName items).errors = before ++ e :: after ∧
        (s.ofItems namespaceName items').errors = before ++ after := by
  have found : ∀ items, s.ofItems namespaceName items =
      .concat ((Item.leavesAll [] items).map (s.ofLeaf namespaceName)) := ofItems_leaves s namespaceName []
  constructor
  · refine ⟨_,?_,found items⟩
    rw [List.forall₂_map_right_iff]
    exact List.forall₂_same.mpr fun leaf _ => yields_ofLeaf s namespaceName leaf
  · intro place i items' refused without
    obtain ⟨before,after,whole,left⟩ := without.leaves
    obtain ⟨e,own⟩ : ∃ e, s.ofStruct (inModules namespaceName place) i = ⟨[],[],[e]⟩ := refused.ofStruct place
    have lost : s.ofLeaf namespaceName (.struct place i) = ⟨[],[],[e]⟩ := own
    obtain ⟨components,enums,errors,errors'⟩ := Findings.concat_of_error
      (before.map (s.ofLeaf namespaceName)) (after.map (s.ofLeaf namespaceName)) e
    rw [found items,found items',whole,left,List.map_append,List.map_append,List.map_cons,lost]
    exact ⟨components,enums,e,_,_,own,errors,errors'⟩

def loneStruct : StructItem :=
  ⟨[⟨⟨4,3⟩,false,["generate_svg"],.list [.word "kind" ⟨4,18⟩] ⟨4,22⟩⟩],"Lone",⟨5,10⟩,false,[]⟩

def pairStruct : StructItem :=
  ⟨[⟨⟨6,3⟩,true,["svg_inline","generate_svg"],
    .list [.word "kind" ⟨6,32⟩,.mark ',' false ⟨6,36⟩,.literal "\"rest\"" ⟨6,38⟩] ⟨6,44⟩⟩],"Pair",⟨7,10⟩,false,[]⟩

def nestedItems (structs : List Item) : List Item :=
  [.nested "outer" [.enum ⟨"Kind",[⟨"Home",false⟩]⟩,.nested "inner" structs],.enum ⟨"Data",[⟨"Flat",true⟩]⟩]

/-- Below two modules, a directive with one argument before one with two; and an enum beside the inner module. -/
theorem ofItems_yields_nested :
    iconSearch.Refuses loneStruct ∧
    Item.Without ["outer","inner"] loneStruct [] (nestedItems [.struct loneStruct,.struct pairStruct])
      (nestedItems [.struct pairStruct]) ∧
    ((iconSearch.ofItems "app" (nestedItems [.struct loneStruct,.struct pairStruct])).components.map fun c =>
      (c.namespaceName,c.name)) = [("app::outer::inner","Pair")] ∧
    (iconSearch.ofItems "app" (nestedItems [.struct loneStruct,.struct pairStruct])).enums =
      [⟨"app::outer","Kind",["Home"]⟩] ∧
    ∃ e, iconSearch.ofStruct "app::outer::inner" loneStruct = ⟨[],[],[e]⟩ ∧
      (iconSearch.ofItems "app" (nestedItems [.struct loneStruct,.struct pairStruct])).errors = [e] := by
  have unread : ∀ kind extras, ¬Attribute.Names
      ⟨⟨4,3⟩,false,["generate_svg"],.list [.word "kind" ⟨4,18⟩] ⟨4,22⟩⟩ kind extras := by
    rintro kind extras ⟨ts,closing,first,second,given,written,_⟩
    cases given
    cases written
  have refused : iconSearch.Refuses loneStruct := ⟨_,rfl,.inr unread⟩
  have here : Item.Without ["outer","inner"] loneStruct (["outer"] ++ ["inner"])
    [.struct loneStruct,.struct pairStruct] [.struct pairStruct] := .here _
  have below : Item.Without ["outer","inner"] loneStruct ([] ++ ["outer"]) _ _ :=
    .behind (.enum ⟨"Kind",[⟨"Home",false⟩]⟩) (.inside here [])
  have without : Item.Without ["outer","inner"] loneStruct [] (nestedItems [.struct loneStruct,.struct pairStruct])
      (nestedItems [.struct pairStruct]) := .inside below _
  obtain ⟨components,enums,e,before,after,own,whole,left⟩ :=
    (ofItems_yields iconSearch "app" _).2 _ _ _ refused without
  have none : (iconSearch.ofItems "app" (nestedItems [.struct pairStruct])).errors = [] := rfl
  obtain ⟨rfl,rfl⟩ := List.append_eq_nil_iff.mp (left.symm.trans none)
  refine ⟨refused,without,?_,?_,e,own,whole⟩
  · rw [← components]
    rfl
  · rw [← enums]
    rfl

end Search
end InlineIcons.Source
