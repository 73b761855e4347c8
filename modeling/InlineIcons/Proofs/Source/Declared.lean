import InlineIcons.Proofs.Source.Resolution

/-! The enums that a crate declares, with and without data, against the table by which its types are resolved. The table
holds those without data alone, so a name that an enum with data takes in its own module is looked for elsewhere. -/
namespace InlineIcons

namespace Source

/-- An enum as it is declared, with its module. -/
structure DeclaredEnum where
  namespaceName : String
  item : EnumItem

namespace DeclaredEnum

def path (d : DeclaredEnum) : String := qualify d.namespaceName d.item.name

def holdsData (d : DeclaredEnum) : Bool := d.item.variants.any Variant.hasData

def ref (d : DeclaredEnum) : EnumRef := ⟨d.namespaceName,d.item.name,d.item.variants.map Variant.name⟩

/-- Whether a name may have been imported for it. -/
def Serves (d : DeclaredEnum) (name : String) : Prop :=
  d.holdsData = false ∧ d.item.name = name ∧ d.ref.EndsWith name

instance (d : DeclaredEnum) (name : String) : Decidable (d.Serves name) :=
  inferInstanceAs (Decidable (d.holdsData = false ∧ d.item.name = name ∧ d.ref.EndsWith name))

def known (ds : List DeclaredEnum) : List EnumRef := (ds.filter fun d => !d.holdsData).map ref

theorem known_append (ds es : List DeclaredEnum) : known (ds ++ es) = known ds ++ known es := by
  rw [known,List.filter_append,List.map_append]
  rfl

theorem known_flatMap {α : Type} (xs : List α) (declared : α → List DeclaredEnum) :
    known (xs.flatMap declared) = xs.flatMap fun x => known (declared x) := by
  rw [known,List.filter_flatMap,List.map_flatMap]
  rfl

theorem mem_known_iff {ds : List DeclaredEnum} {e : EnumRef} :
    e ∈ known ds ↔ ∃ d ∈ ds, d.holdsData = false ∧ d.ref = e := by
  simp [known,and_assoc]

end DeclaredEnum

namespace Item

mutual
/-- The enums that an item declares in a module, whatever they hold. -/
def declared (namespaceName : String) : Item → List DeclaredEnum
  | .struct _ => []
  | .enum e => [⟨namespaceName,e⟩]
  | .nested name items => declaredAll (qualify namespaceName name) items
  | .other => []

def declaredAll (namespaceName : String) : List Item → List DeclaredEnum
  | [] => []
  | item :: items => declared namespaceName item ++ declaredAll namespaceName items
end

end Item

end Source

open Source

def TextFile.declared (f : TextFile) : List DeclaredEnum :=
  match Item.ofText? f.text with
  | .ok items => Item.declaredAll f.relative.modulePath items
  | .error _ => []

namespace Source

namespace Search

theorem enums_ofStruct (s : Search) (namespaceName : String) (item : StructItem) :
    (s.ofStruct namespaceName item).enums = [] := by
  unfold ofStruct
  split
  · rfl
  · split <;> rfl

mutual
/-- Whatever else an item holds, its enums are those that it declares without data. -/
theorem enums_ofItem (s : Search) (namespaceName : String) :
    ∀ item, (s.ofItem namespaceName item).enums = DeclaredEnum.known (item.declared namespaceName)
  | .struct item => by
    rw [ofItem,enums_ofStruct]
    rfl
  | .enum e => by
    rw [ofItem,ofEnum]
    by_cases data : e.variants.any Variant.hasData = true
    · simp [data,Item.declared,DeclaredEnum.known,DeclaredEnum.holdsData,Findings.none]
    · simp [data,Item.declared,DeclaredEnum.known,DeclaredEnum.holdsData,DeclaredEnum.ref]
  | .nested name items => by rw [ofItem,enums_ofItems,Item.declared]
  | .other => rfl

theorem enums_ofItems (s : Search) (namespaceName : String) :
    ∀ items, (s.ofItems namespaceName items).enums = DeclaredEnum.known (Item.declaredAll namespaceName items)
  | [] => rfl
  | item :: items => by
    rw [ofItems,Item.declaredAll,DeclaredEnum.known_append,← enums_ofItem s,← enums_ofItems s]
    rfl
end

end Search

namespace CrateFindings

variable {directive : String} {files : List TextFile}

def table (files : List TextFile) : EnumTable := ⟨DeclaredEnum.known (files.flatMap TextFile.declared)⟩

def findings (directive : String) (files : List TextFile) : List Findings :=
  (files.map (ofFile directive)).filterMap Except.toOption

theorem enums_findings (directive : String) (files : List TextFile) :
    (findings directive files).flatMap Findings.enums = DeclaredEnum.known (files.flatMap TextFile.declared) := by
  rw [DeclaredEnum.known_flatMap]
  induction files with
  | nil => rfl
  | cons f files ih =>
    rw [List.flatMap_cons,← ih,findings,List.map_cons,List.filterMap_cons,ofFile,Search.ofText,TextFile.declared]
    cases Item.ofText? f.text with
    | error fault => rfl
    | ok items =>
      simp only [Except.toOption,List.flatMap_cons,Search.enums_ofItems]
      rfl

theorem declarations_ofFiles (directive : String) (files : List TextFile) : (ofFiles directive files).declarations =
    ((findings directive files).flatMap Findings.components).map (table files).declaration := by
  rw [table,← enums_findings directive]
  rfl

theorem free_table_iff {path : String} : (table files).Free path ↔
    ∀ d ∈ files.flatMap TextFile.declared, d.path = path → d.holdsData = true := by
  unfold EnumTable.Free table
  constructor
  · intro free d held here
    by_contra plain
    exact free d.ref (DeclaredEnum.mem_known_iff.mpr ⟨d,held,by simpa using plain,rfl⟩) here
  · intro filled e known here
    obtain ⟨d,held,plain,rfl⟩ := DeclaredEnum.mem_known_iff.mp known
    exact Bool.false_ne_true (plain.symm.trans (filled d held here))

theorem length_importable (files : List TextFile) (name : String) : ((table files).importable [name]).length =
    (files.flatMap TextFile.declared).countP fun d => d.Serves name := by
  rw [EnumTable.importable,table,DeclaredEnum.known,List.filter_map,List.length_map,List.filter_filter,
    List.countP_eq_length_filter]
  refine congrArg List.length (List.filter_congr fun d _ => ?_)
  rw [Bool.eq_iff_iff,Function.comp_apply,Bool.and_eq_true,Bool.not_eq_true',decide_eq_true_iff,decide_eq_true_iff,
    List.getLast?_singleton,Option.some.injEq,EnumTable.pathText_single]
  constructor
  · rintro ⟨⟨same,ends⟩,plain⟩
    exact ⟨plain,same.symm,ends⟩
  · rintro ⟨plain,same,ends⟩
    exact ⟨⟨same.symm,ends⟩,plain⟩

/-- A name is looked for past its own module just where no enum without data is declared there under that name. It is
found if one without data is declared at the root, or else exactly one elsewhere. -/
theorem lookup?_past_iff {name namespaceName : String} (free : isKeyword name = false) :
    (∃ e, (table files).lookup? namespaceName [name] = some e ∧ e.path ≠ qualify namespaceName name) ↔
      (∀ d ∈ files.flatMap TextFile.declared, d.path = qualify namespaceName name → d.holdsData = true) ∧
        ((∃ d ∈ files.flatMap TextFile.declared, d.path = name ∧ d.holdsData = false) ∨
          ((files.flatMap TextFile.declared).countP fun d => d.Serves name) = 1) := by
  have plain : EnumTable.Unanchored [name] := by
    refine ⟨name,rfl,fun anchor => ?_⟩
    simp only [List.mem_cons,List.not_mem_nil,or_false] at anchor
    rcases anchor with rfl | rfl | rfl <;> exact absurd free (by decide)
  rw [← free_table_iff,← length_importable]
  simp only [plain.lookup?_eq_some_iff,EnumTable.pathText_single]
  constructor
  · rintro ⟨e,here | ⟨none,here⟩,past⟩
    · exact absurd here.path_eq past
    refine ⟨none,?_⟩
    rcases here with here | ⟨_,only,single,_⟩
    · obtain ⟨d,held,plain,rfl⟩ := DeclaredEnum.mem_known_iff.mp here.mem
      exact .inl ⟨d,held,here.path_eq,plain⟩
    · exact .inr (by rw [single]; rfl)
  · rintro ⟨none,found⟩
    by_cases root : (table files).Free name
    · have single : ((table files).importable [name]).length = 1 := by
        refine found.resolve_left ?_
        rintro ⟨d,held,here,plain⟩
        exact Bool.false_ne_true (plain.symm.trans (free_table_iff.mp root d held here))
      obtain ⟨only,single⟩ := List.length_eq_one_iff.mp single
      have held : only ∈ (table files).enums := List.mem_of_mem_filter (single ▸ List.mem_singleton_self only)
      obtain ⟨e,last⟩ := EnumTable.exists_last held
      exact ⟨e,.inr ⟨none,.inr ⟨root,only,single,last⟩⟩,none e last.mem⟩
    · obtain ⟨g,held,here⟩ : ∃ g ∈ (table files).enums, g.path = name := by
        simpa [EnumTable.Free] using root
      obtain ⟨e,last⟩ := EnumTable.exists_last held
      exact ⟨e,.inr ⟨none,.inl (here ▸ last)⟩,none e last.mem⟩

/-- A field whose type is a bare name means an enum of another path than its module's just where no enum without data
is declared in its module under that name, be there one with data or not, and one without data is declared at the root,
or else exactly one elsewhere. -/
theorem property_past_iff {directive : String} {files : List TextFile} {c : Component} {field : ComponentField}
    {name : String} (found : c ∈ (findings directive files).flatMap Findings.components) (held : field ∈ c.fields)
    (bare : field.type.plainPath? = some [name]) (free : isKeyword name = false) :
    ∃ d ∈ (ofFiles directive files).declarations, ∃ p ∈ d.properties, d.namespaceName = c.namespaceName ∧
      d.typeName = c.name ∧ p.name = field.name ∧ p.location = field.location ∧
      ((∃ e, p.type.enum? = some e ∧ e.path ≠ qualify c.namespaceName name) ↔
        (∀ x ∈ files.flatMap TextFile.declared, x.path = qualify c.namespaceName name → x.holdsData = true) ∧
          ((∃ x ∈ files.flatMap TextFile.declared, x.path = name ∧ x.holdsData = false) ∨
            ((files.flatMap TextFile.declared).countP fun x => x.Serves name) = 1)) := by
  refine ⟨(table files).declaration c,?_,⟨field.name,(table files).resolve c.namespaceName field.type,
    field.location⟩,?_,rfl,rfl,rfl,rfl,?_⟩
  · rw [declarations_ofFiles]
    exact List.mem_map_of_mem found
  · exact List.mem_map.mpr ⟨field,held,rfl⟩
  · rw [← lookup?_past_iff free,EnumTable.enum?_resolve,bare]
    rfl

/-- A module whose own `Kind` holds data, and an enum of that name in another module, which the field gets instead. -/
def takenFiles : List TextFile :=
  [⟨⟨"src/a.rs"⟩,⟨"a.rs"⟩,"enum Kind { Flat(u8) }\n#[generate_svg(kind, rest)]\nstruct Icon { kind: Kind, rest: Map }"⟩,
    ⟨⟨"src/b.rs"⟩,⟨"b.rs"⟩,"enum Kind { Home }"⟩]

theorem property_past_taken : isKeyword "Kind" = false ∧
    (∃ x ∈ takenFiles.flatMap TextFile.declared, x.path = "a::Kind" ∧ x.holdsData = true) ∧
    ∃ c ∈ (findings "generate_svg" takenFiles).flatMap Findings.components, ∃ field ∈ c.fields, c.namespaceName = "a" ∧
      field.name = "kind" ∧ field.type.plainPath? = some ["Kind"] ∧
      ∃ d ∈ (ofFiles "generate_svg" takenFiles).declarations, ∃ p ∈ d.properties, d.namespaceName = "a" ∧
        p.name = "kind" ∧ ∃ e, p.type.enum? = some e ∧ e.path ≠ "a::Kind" := by
  have shown : ((findings "generate_svg" takenFiles).flatMap Findings.components).any (fun c =>
      c.namespaceName = "a" ∧ c.fields.any fun f => f.name = "kind" ∧ f.type.plainPath? = some ["Kind"]) = true := by
    decide +kernel
  have taken : (∃ x ∈ takenFiles.flatMap TextFile.declared, x.path = "a::Kind" ∧ x.holdsData = true) ∧
      (∀ x ∈ takenFiles.flatMap TextFile.declared, x.path = qualify "a" "Kind" → x.holdsData = true) ∧
        ((takenFiles.flatMap TextFile.declared).countP fun x => x.Serves "Kind") = 1 := by
    decide +kernel
  obtain ⟨c,found,own⟩ := List.any_eq_true.mp shown
  obtain ⟨place,fields⟩ := of_decide_eq_true own
  obtain ⟨field,held,own⟩ := List.any_eq_true.mp fields
  obtain ⟨called,bare⟩ := of_decide_eq_true own
  have free : isKeyword "Kind" = false := by decide
  obtain ⟨d,listed,p,inside,placed,_,named,_,past⟩ := property_past_iff found held bare free
  rw [place] at past placed
  refine ⟨free,taken.1,c,found,field,held,place,called,bare,d,listed,p,inside,placed,named.trans called,?_⟩
  exact past.mpr ⟨taken.2.1,.inr taken.2.2⟩

end CrateFindings

end Source
end InlineIcons
