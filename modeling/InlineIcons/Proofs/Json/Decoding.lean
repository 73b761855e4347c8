import InlineIcons.Proofs.Pipeline.Hashed

/-! Declarations are read back from the text of their JSON form, unless its brackets nest deeper than the reader
follows them. A location that is left out of the form reads as the empty one, whichever others are left out
beside it. -/
namespace InlineIcons

namespace Json

theorem word?_num {n : Nat} (fits : n < UInt64.size) : (num n).word? = some n := if_pos fits

theorem entries_append (before after : List (String × Json)) (key : String) :
    (obj (before ++ after)).entries key = (obj before).entries key ++ (obj after).entries key :=
  List.filterMap_append

theorem nesting_ofTexts (xs : List String) : (ofTexts xs).nesting = 1 := by
  have flat : nestingItems (xs.map str) ≤ 0 := nestingItems_le_iff.mpr (by simp [nesting])
  simpa [ofTexts,nesting] using flat

theorem nesting_obj_le_iff {fields : List (String × Json)} {levels : Nat} :
    (obj fields).nesting ≤ levels + 1 ↔ ∀ f ∈ fields, f.2.nesting ≤ levels := by
  rw [nesting,Nat.add_le_add_iff_right,nestingFields_le_iff]

theorem nesting_obj_append {before after : List (String × Json)} {levels : Nat} :
    (obj (before ++ after)).nesting ≤ levels + 1 ↔
      (obj before).nesting ≤ levels + 1 ∧ (obj after).nesting ≤ levels + 1 := by
  simp only [nesting_obj_le_iff,List.forall_mem_append]

theorem texts?_ofTexts (xs : List String) : (ofTexts xs).texts? = some xs := by
  have read : (xs.map str).mapM str? = some xs := by
    induction xs with
    | nil => rfl
    | cons x xs ih =>
      rw [List.map_cons,List.mapM_cons,ih]
      rfl
  exact read

end Json

namespace Location

/-- Line and column are numbers of 64 bits. -/
structure Fits (l : Location) : Prop where
  line : l.line < UInt64.size
  column : l.column < UInt64.size

instance (l : Location) : Decidable l.Fits :=
  decidable_of_iff (l.line < UInt64.size ∧ l.column < UInt64.size)
    ⟨fun ⟨line,column⟩ => ⟨line,column⟩,fun fits => ⟨fits.line,fits.column⟩⟩

theorem ofJson?_toJson {l : Location} (fits : l.Fits) : ofJson? l.toJson = some l := by
  have line := Json.word?_num fits.line
  have column := Json.word?_num fits.column
  simp [ofJson?,toJson,Json.field,Json.entries,Json.str?,line,column]

def entry (left : Bool) (l : Location) : List (String × Json) :=
  if left then [] else [("location",l.toJson)]

/-- What the field says, or the empty location if it is left out. -/
def leaving (left : Bool) (l : Location) : Location := if left then none else l

theorem ofField?_entry {l : Location} (fits : l.Fits) (left : Bool) (before : List (String × Json))
    (apart : (Json.obj before).entries "location" = []) :
    ofField? (.obj (before ++ l.entry left)) "location" = some (l.leaving left) := by
  cases left with
  | true => simp [ofField?,entry,leaving,apart]
  | false =>
    have here : (Json.obj (before ++ [("location",l.toJson)])).entries "location" = [l.toJson] := by
      rw [Json.entries_append,apart]
      rfl
    simp [ofField?,entry,leaving,here,ofJson?_toJson fits]

theorem nesting_entry (left : Bool) (l : Location) (levels : Nat) :
    (Json.obj (l.entry left)).nesting ≤ levels + 1 + 1 := by
  cases left with
  | true => simp [entry,Json.nesting_obj_le_iff]
  | false => simp [entry,toJson,Json.nesting,Json.nestingFields]

theorem field_entry (left : Bool) (l : Location) (before : List (String × Json)) {key : String}
    (other : "location" ≠ key) : (Json.obj (before ++ l.entry left)).field key = (Json.obj before).field key := by
  have none : (Json.obj (l.entry left)).entries key = [] := by
    cases left with
    | true => rfl
    | false => simp [entry,Json.entries,other]
  rw [Json.field,Json.entries_append,none,List.append_nil,Json.field]

end Location

theorem EnumRef.ofJson?_tagged (e : EnumRef) (tag : Json) : ofJson? (.obj (("kind",tag) :: e.fields)) = some e := by
  simp [ofJson?,fields,Json.field,Json.entries,Json.str?,Json.texts?_ofTexts]

namespace TypeRef

/-- How many options stand around a type. -/
def options : TypeRef → Nat
  | optional _ inner => inner.options + 1
  | _ => 0

/-- The type inside all options. -/
def core : TypeRef → TypeRef
  | optional _ inner => inner.core
  | t => t

/-- How many options a reader follows: the members of an enum stand in a bracket that other types do not have. -/
def Readable (t : TypeRef) : Prop := t.options ≤ if t.core.enum?.isSome then 60 else 61

instance (t : TypeRef) : Decidable t.Readable := inferInstanceAs (Decidable (_ ≤ _))

theorem nesting_core (t : TypeRef) : t.core.toJson.nesting = if t.core.enum?.isSome then 3 else 2 := by
  induction t with
  | enumeration d e =>
    simp [toJson,EnumRef.fields,core,enum?,Json.nesting,Json.nestingFields,Json.nesting_ofTexts]
  | optional d inner ih => exact ih
  | other d => rfl

/-- Each option adds the brackets of a type and of its kind. -/
theorem nesting_toJson (t : TypeRef) : t.toJson.nesting = 2 * t.options + t.core.toJson.nesting := by
  induction t with
  | enumeration d e => exact (Nat.zero_add _).symm
  | optional d inner ih =>
    simp only [toJson,Json.nesting,Json.nestingFields,options,core] at ih ⊢
    omega
  | other d => rfl

theorem readable_iff {t : TypeRef} : t.Readable ↔ t.toJson.nesting ≤ 124 := by
  rw [Readable,nesting_toJson,nesting_core]
  split <;> omega

theorem ofJsonWithin?_toJson {t : TypeRef} {levels : Nat} (deep : t.options < levels) :
    ofJsonWithin? levels t.toJson = some t := by
  induction t generalizing levels with
  | enumeration d e =>
    obtain _ | levels := levels
    · contradiction
    · have target := e.ofJson?_tagged (.str "enum")
      simp [ofJsonWithin?,toJson,Json.field,Json.entries,Json.str?,EnumRef.fields] at target ⊢
      simp [target]
  | optional d inner ih =>
    obtain _ | levels := levels
    · contradiction
    · have inside : inner.options < levels := Nat.lt_of_succ_lt_succ deep
      simp [ofJsonWithin?,toJson,Json.field,Json.entries,Json.str?,ih inside]
  | other d =>
    obtain _ | levels := levels
    · contradiction
    · simp [ofJsonWithin?,toJson,Json.field,Json.entries,Json.str?]

theorem ofJson?_toJson {t : TypeRef} (readable : t.Readable) : ofJson? t.toJson = some t := by
  refine ofJsonWithin?_toJson (Nat.lt_of_le_of_lt readable ?_)
  split <;> decide

end TypeRef

namespace Directive

/-- The JSON form, in which the location may be left out. -/
def toJsonLeaving (left : Bool) (d : Directive) : Json :=
  .obj ([("kind_property",.str d.kindProperty),("extras_property",.str d.extrasProperty)] ++ d.location.entry left)

def leaving (left : Bool) (d : Directive) : Directive := { d with location := d.location.leaving left }

theorem nesting_leaving (left : Bool) (d : Directive) (levels : Nat) :
    (d.toJsonLeaving left).nesting ≤ levels + 1 + 1 :=
  Json.nesting_obj_append.mpr ⟨by simp [Json.nesting,Json.nestingFields],d.location.nesting_entry left levels⟩

theorem ofJson?_leaving {d : Directive} (fits : d.location.Fits) (left : Bool) :
    ofJson? (d.toJsonLeaving left) = some (d.leaving left) := by
  have place := Location.ofField?_entry fits left
    [("kind_property",.str d.kindProperty),("extras_property",.str d.extrasProperty)] rfl
  rw [ofJson?,toJsonLeaving,place,Location.field_entry _ _ _ (by decide),Location.field_entry _ _ _ (by decide)]
  rfl

end Directive

namespace Property

def toJsonLeaving (left : Bool) (p : Property) : Json :=
  .obj ([("name",.str p.name),("ty",p.type.toJson)] ++ p.location.entry left)

def leaving (left : Bool) (p : Property) : Property := { p with location := p.location.leaving left }

/-- The brackets of a location lie no deeper than those of a type. -/
theorem nesting_leaving_le_iff {left : Bool} {p : Property} {levels : Nat} :
    (p.toJsonLeaving left).nesting ≤ levels + 1 + 1 ↔ p.type.toJson.nesting ≤ levels + 1 := by
  rw [toJsonLeaving,Json.nesting_obj_append,and_iff_left (p.location.nesting_entry left levels),Json.nesting_obj_le_iff]
  simp [Json.nesting]

theorem ofJson?_leaving {p : Property} (fits : p.location.Fits) (readable : p.type.Readable) (left : Bool) :
    ofJson? (p.toJsonLeaving left) = some (p.leaving left) := by
  have place := Location.ofField?_entry fits left [("name",.str p.name),("ty",p.type.toJson)] rfl
  have type : TypeRef.ofJson? ((Json.obj [("name",.str p.name),("ty",p.type.toJson)]).field "ty") = some p.type :=
    TypeRef.ofJson?_toJson readable
  rw [ofJson?,toJsonLeaving,place,Location.field_entry _ _ _ (by decide),Location.field_entry _ _ _ (by decide),type]
  rfl

end Property

theorem mapM_mapIdx {α β γ : Type} {f : Nat → α → β} {g : Nat → α → γ} {read : β → Option γ} {l : List α}
    (all : ∀ i, ∀ a ∈ l, read (f i a) = some (g i a)) : (l.mapIdx f).mapM read = some (l.mapIdx g) := by
  induction l generalizing f g with
  | nil => rfl
  | cons a l ih =>
    have rest := ih fun i b member => all (i + 1) b (List.mem_cons_of_mem a member)
    rw [List.mapIdx_cons,List.mapIdx_cons,List.mapM_cons,all 0 a List.mem_cons_self,rest]
    rfl

namespace Declaration

/-- Which locations are left out of a JSON form: the declaration's own, that of its directive, those of its
properties by their numbers. -/
structure LeftOut where
  own : Bool
  directive : Bool
  property : Nat → Bool

/-- The JSON form without some locations. -/
def toJsonLeaving (left : LeftOut) (d : Declaration) : Json :=
  .obj ([("namespace",.str d.namespaceName),("type_name",.str d.typeName),
    ("directive",d.directive.toJsonLeaving left.directive),
    ("properties",.arr (d.properties.mapIdx fun i p => p.toJsonLeaving (left.property i)))] ++
      d.location.entry left.own)

/-- The declaration that is empty in some of its locations and otherwise the same. -/
def leaving (left : LeftOut) (d : Declaration) : Declaration :=
  { d with
    directive := d.directive.leaving left.directive
    properties := d.properties.mapIdx fun i p => p.leaving (left.property i)
    location := d.location.leaving left.own }

def locations (d : Declaration) : List Location :=
  d.location :: d.directive.location :: d.properties.map Property.location

/-- In the whole form nothing is left out. -/
theorem toJson_eq (d : Declaration) : d.toJson = d.toJsonLeaving ⟨false,false,fun _ => false⟩ := by
  have listed : d.properties.map Property.toJson = d.properties.mapIdx fun _ p => p.toJsonLeaving false := by
    apply List.ext_getElem <;> simp [Property.toJson,Property.toJsonLeaving,Location.entry]
  rw [toJson,listed]
  rfl

theorem leaving_nothing (d : Declaration) : d.leaving ⟨false,false,fun _ => false⟩ = d := by
  have listed : (d.properties.mapIdx fun _ p => p.leaving false) = d.properties := by
    apply List.ext_getElem <;> simp [Property.leaving,Location.leaving]
  rw [leaving,listed]
  rfl

/-- No property has a type under more options than a reader follows. -/
def Readable (d : Declaration) : Prop := ∀ p ∈ d.properties, p.type.Readable

instance (d : Declaration) : Decidable d.Readable := inferInstanceAs (Decidable (∀ p ∈ d.properties, p.type.Readable))

theorem ofJson?_leaving {d : Declaration} (fits : ∀ l ∈ d.locations, l.Fits) (readable : d.Readable) (left : LeftOut) :
    ofJson? (d.toJsonLeaving left) = some (d.leaving left) := by
  obtain ⟨own,asked,listed⟩ : d.location.Fits ∧ d.directive.location.Fits ∧ ∀ p ∈ d.properties, p.location.Fits := by
    simpa [locations] using fits
  have directive := Directive.ofJson?_leaving asked left.directive
  have properties : (d.properties.mapIdx fun i p => p.toJsonLeaving (left.property i)).mapM Property.ofJson? =
      some (d.properties.mapIdx fun i p => p.leaving (left.property i)) :=
    mapM_mapIdx fun i p member => Property.ofJson?_leaving (listed p member) (readable p member) (left.property i)
  let before := [("namespace",Json.str d.namespaceName),("type_name",.str d.typeName),
    ("directive",d.directive.toJsonLeaving left.directive),
    ("properties",.arr (d.properties.mapIdx fun i p => p.toJsonLeaving (left.property i)))]
  have place := Location.ofField?_entry own left.own before rfl
  have other (key : String) (apart : "location" ≠ key) : (d.toJsonLeaving left).field key = (Json.obj before).field key :=
    Location.field_entry left.own d.location before apart
  have fields : ofJson? (d.toJsonLeaving left) = (do
      let directive ← Directive.ofJson? (d.directive.toJsonLeaving left.directive)
      let properties ← (d.properties.mapIdx fun i p => p.toJsonLeaving (left.property i)).mapM Property.ofJson?
      let location ← Location.ofField? (d.toJsonLeaving left) "location"
      return ⟨d.namespaceName,d.typeName,directive,properties,location⟩) := by
    rw [ofJson?,other _ (by decide),other _ (by decide),other _ (by decide),other _ (by decide)]
    rfl
  rw [fields,directive,properties,toJsonLeaving,place]
  rfl

/-- The brackets of a form nest within the limit just if the declaration is readable, whichever locations are left
out of it. -/
theorem nesting_leaving_le_iff {left : LeftOut} {d : Declaration} :
    (d.toJsonLeaving left).nesting ≤ Json.maxNesting ↔ d.Readable := by
  have listed : (Json.arr (d.properties.mapIdx fun i p => p.toJsonLeaving (left.property i))).nesting ≤ 126 ↔
      d.Readable := by
    rw [Json.nesting,Nat.succ_le_succ_iff,Json.nestingItems_le_iff]
    simp only [List.mem_mapIdx,Readable,TypeRef.readable_iff]
    constructor
    · intro all p member
      obtain ⟨i,bound,rfl⟩ := List.getElem_of_mem member
      exact Property.nesting_leaving_le_iff.mp (all _ ⟨i,bound,rfl⟩)
    · rintro small _ ⟨i,bound,rfl⟩
      exact Property.nesting_leaving_le_iff.mpr (small _ (List.getElem_mem bound))
  have asked : (d.directive.toJsonLeaving left.directive).nesting ≤ 126 := d.directive.nesting_leaving left.directive 124
  rw [toJsonLeaving,Json.maxNesting,Json.nesting_obj_append,and_iff_left (d.location.nesting_entry left.own 125),
    Json.nesting_obj_le_iff]
  simp only [List.forall_mem_cons,listed,asked,true_and]
  simp [Json.nesting]

theorem ofText?_leaving {d : Declaration} (fits : ∀ l ∈ d.locations, l.Fits) (left : LeftOut) :
    ofText? (d.toJsonLeaving left).compact = if d.Readable then some (d.leaving left) else none := by
  have nesting : (d.toJsonLeaving left).nesting ≤ Json.maxNesting ↔ d.Readable := nesting_leaving_le_iff
  rw [ofText?,Json.ofText?_compact]
  by_cases readable : d.Readable
  · rw [if_pos (nesting.mpr readable),if_pos readable]
    exact ofJson?_leaving fits readable left
  · rw [if_neg (mt nesting.mp readable),if_neg readable]
    rfl

theorem ofText?_toJson {d : Declaration} (fits : ∀ l ∈ d.locations, l.Fits) :
    ofText? d.toJson.compact = if d.Readable then some d else none := by
  rw [toJson_eq,ofText?_leaving fits,leaving_nothing]

/-- A declaration is read back from the text of its JSON form if it is readable and refused if it is not, and
likewise from the forms that leave some of its locations out, as the declaration that is empty in these. The bytes
that are hashed for a declaration tell it from every other one, readable or not. -/
theorem json_round_trip {d : Declaration} (fits : ∀ l ∈ d.locations, l.Fits) :
    (ofText? d.toJson.compact = if d.Readable then some d else none) ∧
      (∀ left, ofText? (d.toJsonLeaving left).compact = if d.Readable then some (d.leaving left) else none) ∧
      ∀ e : Declaration, e.hashed = d.hashed → e = d :=
  ⟨ofText?_toJson fits,ofText?_leaving fits,fun _ same => hashed_injective same⟩

/-- An enum under as many options as a reader follows, texts that are written with escapes, and places at both ends
of the numbers. -/
def farDeclaration : Declaration where
  namespaceName := "shared::\"icons\"\n"
  typeName := "Icon\x00\\"
  directive := ⟨"kind","extras",⟨⟨"src\\a.rs"⟩,0,2^64 - 1⟩⟩
  properties := [
    ⟨"kind",Nat.repeat .optionalOf 60 (.ofEnum ⟨"shared","Kind",["Home","\t\x1f\x7f"]⟩),⟨⟨"a.rs"⟩,2^64 - 1,1⟩⟩,
    ⟨"extras",.other "kind",.none⟩]
  location := ⟨⟨"src/a.rs"⟩,3,1⟩

theorem json_round_trip_farDeclaration : (∀ l ∈ farDeclaration.locations, l.Fits) ∧
    ofText? farDeclaration.toJson.compact = some farDeclaration ∧
      ofText? (farDeclaration.toJsonLeaving ⟨true,false,(· = 0)⟩).compact =
        some (farDeclaration.leaving ⟨true,false,(· = 0)⟩) := by
  have fits : ∀ l ∈ farDeclaration.locations, l.Fits := by decide
  have readable : farDeclaration.Readable := by decide
  obtain ⟨whole,partly,_⟩ := json_round_trip fits
  exact ⟨fits,whole.trans (if_pos readable),(partly _).trans (if_pos readable)⟩

/-- A plain type under one option more than a reader follows. -/
def deepDeclaration : Declaration where
  namespaceName := ""
  typeName := "Icon"
  directive := ⟨"kind","extras",.none⟩
  properties := [⟨"kind",.ofEnum ⟨"","Kind",["Home"]⟩,.none⟩,
    ⟨"extras",Nat.repeat (.optional "Extras") 62 (.other "String"),.none⟩]
  location := .none

theorem deepDeclaration_refused : (∀ l ∈ deepDeclaration.locations, l.Fits) ∧
    ofText? deepDeclaration.toJson.compact = none := by
  have fits : ∀ l ∈ deepDeclaration.locations, l.Fits := by decide
  have deep : ¬ deepDeclaration.Readable := by decide
  exact ⟨fits,(ofText?_toJson fits).trans (if_neg deep)⟩

end Declaration

end InlineIcons
