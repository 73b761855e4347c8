import InlineIcons.Proofs.Pipeline.Separate
import InlineIcons.Proofs.Pipeline.UnitNames
import InlineIcons.Proofs.Program.Listing

/-! The index read back: it includes every other unit, in the order in which the units come, whatever characters their
names hold. -/
namespace InlineIcons

namespace Reading

/-- The file that a line includes. Its name is a string literal. -/
def inclusion? : Block → Option String
  | .scope _ _ => none
  | .line cs => do
    let (hint,cs) ← literal? (← after? "include!(" cs)
    if cs = ");".toList then some hint else none

theorem inclusion?_line (hint : String) :
    inclusion? (.line ("include!(" ++ Literal.quote hint ++ ");").toList) = some hint := by
  have chars : ("include!(" ++ Literal.quote hint ++ ");").toList =
      "include!(".toList ++ ((Literal.quote hint).toList ++ ");".toList) := by simp
  simp only [inclusion?,chars,after?_append,literal?_append,Option.bind_eq_bind,Option.bind_some,if_true]

end Reading

namespace SourceUnit

open Step Reading

/-- The files that a text includes. It holds nothing beside them but comments and empty lines. -/
def inclusions? (source : String) : Option (List String) := (Block.read? source).bind (List.mapM inclusion?)

theorem reads_inclusion (hint : String) : Reads (.line ("include!(" ++ Literal.quote hint ++ ");"))
    [.line ("include!(" ++ Literal.quote hint ++ ");").toList] := by
  apply reads_line
  · simp [LineKind.begins]
  · rw [String.toList_append]
    exact LineKind.ends_append _ (by decide)
  · simp [Literal.newline_not_mem_quote]

/-- Every name comes back, and the names come in their order. -/
theorem inclusions?_index (hints : List String) : inclusions? (index hints).source = some hints := by
  have listed := readAs_map fun hint (_ : hint ∈ hints) => reads_inclusion hint
  have comment : Reads (.line header) [] := reads_comment (by decide) (by decide)
  have reads := readAs_cons comment (readAs_cons reads_emptyLine listed)
  have told := mapM_map fun hint (_ : hint ∈ hints) => inclusion?_line hint
  rw [inclusions?,index,indexSteps,Block.read?_write reads]
  simpa using told

end SourceUnit

namespace Pipeline

theorem unitPrecedes_iff (u v : SourceUnit) : unitPrecedes u v = true ↔ u.hintName ≤ v.hintName := by
  rw [unitPrecedes,Bool.not_eq_true',decide_eq_false_iff_not,String.not_lt]

theorem unitPrecedes_trans (u v w : SourceUnit) (first : unitPrecedes u v = true) (second : unitPrecedes v w = true) :
    unitPrecedes u w = true := by
  rw [unitPrecedes_iff] at first second ⊢
  exact String.le_trans first second

theorem unitPrecedes_total (u v : SourceUnit) : (unitPrecedes u v || unitPrecedes v u) = true := by
  rw [Bool.or_eq_true,unitPrecedes_iff,unitPrecedes_iff]
  exact String.le_total _ _

/-- Where no two results share a name, sorting puts their units into strict order. -/
theorem definitions_sorted {results : List GenerationResult} (distinct : (HintNames.names results).Nodup) :
    ((results.filterMap GenerationResult.unit?).mergeSort unitPrecedes).Pairwise
      fun u v => u.hintName < v.hintName := by
  have sorted := List.pairwise_mergeSort unitPrecedes_trans unitPrecedes_total
    (results.filterMap GenerationResult.unit?)
  have same := (List.mergeSort_perm (results.filterMap GenerationResult.unit?) unitPrecedes).map SourceUnit.hintName
  rw [names_of_units] at same
  have apart := List.pairwise_map.mp (same.nodup_iff.mpr distinct)
  refine (sorted.and apart).imp fun {u v} both => ?_
  rw [unitPrecedes_iff] at both
  exact String.not_le.mp fun back => both.2 (String.le_antisymm both.1 back)

def FixedUnit (options : PipelineOptions) (key : String) (_ : Fingerprint) (value : SourceUnit) : Prop :=
  (key = "directive" → value = SourceUnit.directive) ∧
    (key = "catalog" → ∀ o, options.catalog = some o → ∃ icons, value = SourceUnit.catalog icons o)

theorem fixed_unit (options : PipelineOptions) : HoldsOfFixed options (FixedUnit options) where
  directive _ := ⟨fun _ => rfl,fun key => absurd key (by decide)⟩
  catalog o chosen index print := by
    refine ⟨fun key => absurd key (by decide),fun _ o' chosen' => ⟨index,?_⟩⟩
    rw [Option.some.inj (chosen'.symm.trans chosen)]

/-- After any runs the first unit is the directive's, and a catalog is the next one if there is to be one. -/
theorem fixedUnits_runAll (options : PipelineOptions) (history : List Inputs) (c : Collected) :
    ∃ catalog : Option SourceUnit,
      (((new options).runAll history).fixedUnits c).1 = SourceUnit.directive :: catalog.toList ∧
      (options.catalog = none → catalog = none) ∧
      ∀ o, options.catalog = some o → ∃ icons, catalog = some (SourceUnit.catalog icons o) := by
  have table := units_runAll (p := new options) (fixed_unit options) Memo.all_empty history
  have chosen : ((new options).runAll history).options = options := options_runAll ..
  generalize (new options).runAll history = p at table chosen
  subst chosen
  obtain ⟨⟨_,directive⟩,catalog⟩ := fixedUnits_all (fixed_unit p.options) table c
  refine ⟨p.options.catalog.map fun o => (p.catalogEntry c o).1,?_,?_,?_⟩
  · rw [fixedUnits_fst,directive.1 rfl]
  · intro none
    rw [none,Option.map_none]
  · intro o chosen
    obtain ⟨_,known⟩ := catalog o chosen
    obtain ⟨icons,same⟩ := known.2 rfl o chosen
    exact ⟨icons,by rw [chosen,Option.map_some,same]⟩

/-- The units of a run come in a fixed order: the directive's, the catalog if there is to be one, one for each result
that has a source, by their names, and the index, which includes just those before it and in that order. An index gives
back the names that it is made of, whatever they are. -/
theorem units_listed : (∀ hints, SourceUnit.inclusions? (SourceUnit.index hints).source = some hints) ∧
    ∀ options history inputs report, (((new options).runAll history).run inputs).1 = .ok report →
      ∃ (catalog : Option SourceUnit) (definitions : List SourceUnit) (index : SourceUnit),
        report.units = SourceUnit.directive :: catalog.toList ++ definitions ++ [index] ∧
        (options.catalog = none → catalog = none) ∧
        (∀ o, options.catalog = some o → ∃ icons, catalog = some (SourceUnit.catalog icons o)) ∧
        definitions.Perm (report.results.filterMap GenerationResult.unit?) ∧
        definitions.Pairwise (fun u v => u.hintName < v.hintName) ∧
        index.hintName = SourceUnit.indexHint ∧
        SourceUnit.inclusions? index.source =
          some ((SourceUnit.directive :: catalog.toList ++ definitions).map SourceUnit.hintName) := by
  refine ⟨SourceUnit.inclusions?_index,fun options history inputs report ran => ?_⟩
  cases done : ((new options).runAll history).collected inputs with
  | error e => simp [run_of_error done] at ran
  | ok c =>
    rw [run_of_ok done,Except.ok.injEq] at ran
    obtain ⟨catalog,fixed,none,some⟩ := fixedUnits_runAll options history c
    have distinct := (HintNames.assign_given ((new options).runAll history).options.catalog
      (((new options).runAll history).generated inputs c)).1
    refine ⟨catalog,_,_,?_,none,some,?_,definitions_sorted distinct,rfl,SourceUnit.inclusions?_index _⟩
    · rw [← ran,Pipeline.report,assemble,fixed]
      rfl
    · rw [← ran]
      exact List.mergeSort_perm ..

def catalogued : PipelineOptions := { PipelineOptions.standard with catalog := some ⟨"IconType"⟩ }

def cataloguedInputs : Inputs :=
  ⟨[],[rivalDeclaration "ICON",rivalDeclaration "Icon",{ rivalDeclaration "Zoom" with properties := [] }]⟩

/-- A catalog, two definitions whose units would have one name, and one that fails its check. -/
theorem units_listed_catalogued : ∃ report units index,
    (((new catalogued).runAll []).run cataloguedInputs).1 = .ok report ∧ report.units = units ++ [index] ∧
      index.hintName = "svg_inline.g.rs" ∧ SourceUnit.inclusions? index.source = some (units.map SourceUnit.hintName) ∧
      units.map SourceUnit.hintName =
        ["generate_svg_attribute.g.rs","icon_type.g.rs","nav__icon.g.rs","nav__icon_2.g.rs"] := by
  have ran : (((new catalogued).runAll []).run cataloguedInputs).1 = .ok _ := run_lenient rfl cataloguedInputs
  obtain ⟨catalog,definitions,index,shape,_,present,perm,sorted,last,read⟩ := units_listed.2 _ _ _ _ ran
  obtain ⟨icons,rfl⟩ := present ⟨"IconType"⟩ rfl
  refine ⟨_,_,index,ran,shape,last,read,?_⟩
  have declarations : Declaration.select cataloguedInputs.declarations = cataloguedInputs.declarations :=
    Declaration.groups.select_eq_self (by decide +kernel)
  have results : (new catalogued).generated cataloguedInputs (.ofFiles (AssetFile.select "svg" [])) =
      cataloguedInputs.declarations.map fun d => d.analyze.generate (.ofList []) .standard := by
    rw [generated_new,declarations,AssetFile.select_eq_self (by simp) (by simp)]
    rfl
  have given : HintNames.names ((new catalogued).named cataloguedInputs (.ofFiles (AssetFile.select "svg" []))) =
      ["nav__icon.g.rs","nav__icon_2.g.rs"] := by
    rw [named,results]
    decide +kernel
  have same : (definitions.map SourceUnit.hintName).Perm ["nav__icon.g.rs","nav__icon_2.g.rs"] := by
    rw [← given,← names_of_units]
    exact perm.map _
  have named : definitions.map SourceUnit.hintName = ["nav__icon.g.rs","nav__icon_2.g.rs"] := by
    refine same.eq_of_pairwise (fun u v _ _ less more => ?_) (List.pairwise_map.mpr sorted) (by decide)
    exact absurd (String.lt_trans less more) (String.lt_irrefl u)
  have catalog : (SourceUnit.catalog icons ⟨"IconType"⟩).hintName = "icon_type.g.rs" := by
    show SourceUnit.catalogHint "IconType" = _
    decide +kernel
  simp only [List.map_append,List.map_cons,Option.toList_some,List.map_nil,named,catalog]
  rfl

end Pipeline
end InlineIcons
