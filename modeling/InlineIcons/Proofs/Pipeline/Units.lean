import InlineIcons.Output
import InlineIcons.Proofs.Pipeline.UnitNames

/-! The units of a new pipeline: what the fixed ones are, that all are named as generated files, and that units
of one name differ in their text. -/
namespace InlineIcons

namespace CodeWriter

theorem grows_line (w : CodeWriter) (text : String) : w.text.toList <+: (w.line text).text.toList := by
  simp [line,startLine,endLine,append]

mutual
theorem grows_step (w : CodeWriter) : (s : Step) → w.text.toList <+: (w.step s).writer.text.toList
  | .append text => by simp [step,Run.one,append]
  | .line text => w.grows_line text
  | .emptyLine => by simp [step,Run.one,endLine,append]
  | .startLine => by simp [step,Run.one,startLine,append]
  | .endLine => by simp [step,Run.one,endLine,append]
  | .scope header body => by
    have opened : w.text.toList <+: (w.openScope header).text.toList := w.grows_line (opening header)
    have inner := grows_run (w.openScope header) body
    exact (opened.trans inner).trans (grows_line ((w.openScope header).run body).writer.dedent "\x7d")
  | .indented body => grows_run w.indent body
  | .leave => List.prefix_refl _

theorem grows_run (w : CodeWriter) : (steps : List Step) → w.text.toList <+: (w.run steps).writer.text.toList
  | [] => List.prefix_refl _
  | s :: rest => by
    have first := grows_step w s
    rw [run]
    split
    · exact first
    · exact first.trans (grows_run (w.step s).writer rest)
end

theorem write_starts (first second : String) (rest : List Step) :
    (first ++ "\n\n" ++ second).toList <+: (write (.line first :: .emptyLine :: .line second :: rest)).toList := by
  have grows := grows_run (((start.line first).endLine).line second) rest
  have run : write (.line first :: .emptyLine :: .line second :: rest) =
      ((((start.line first).endLine).line second).run rest).writer.text := by
    simp [write,CodeWriter.run,step,Run.one]
  have text : (((start.line first).endLine).line second).text = first ++ "\n\n" ++ second ++ "\n" := by
    apply String.toList_inj.mp
    simp [start,line,startLine,endLine,append,indentation]
  rw [text] at grows
  rw [run]
  exact List.IsPrefix.trans (by simp) grows

end CodeWriter

namespace SourceUnit

def start (u : SourceUnit) : List Char := (u.source.toList.drop 22).take 5

theorem start_of_write {name text : String} {rest : List Step} (long : 5 ≤ text.toList.length) :
    (⟨name,CodeWriter.write (.line header :: .emptyLine :: .line text :: rest)⟩ : SourceUnit).start =
      text.toList.take 5 := by
  obtain ⟨more,split⟩ := CodeWriter.write_starts header text rest
  have before : (header ++ "\n\n").toList.length = 22 := by decide
  rw [start,← split,String.toList_append,List.append_assoc]
  rw [List.drop_append_of_le_length (by omega),List.drop_eq_nil_of_le (by omega),List.nil_append]
  exact List.take_append_of_le_length long

theorem start_directive : directive.start = "/// R".toList :=
  (start_of_write (by decide)).trans (by decide)

theorem start_catalog (index : AssetIndex) (o : CatalogOptions) : (catalog index o).start = "/// E".toList :=
  (start_of_write (by decide)).trans (by decide)

theorem start_index (first : String) (hints : List String) : (index (first :: hints)).start = "inclu".toList := by
  have long : 5 ≤ ("include!(" ++ Literal.quote first ++ ");").toList.length := by simp
  refine (start_of_write long).trans ?_
  simp

def Marked (name : String) : Prop := FileTree.isGenerated name.toList = true

theorem marked_append (stem : String) : Marked (stem ++ suffix) := by
  rw [Marked,FileTree.isGenerated,List.isSuffixOf_iff_suffix,String.toList_append]
  exact List.suffix_append _ _

end SourceUnit

namespace HintNames

open SourceUnit

theorem marked_free (taken : List String) {name : String} (marked : Marked name) : Marked (free taken name) := by
  unfold free
  cases found : ((List.range (taken.length + 1)).map fun i => numbered name (i + 2)).find?
      (!taken.contains ·) with
  | none => exact marked
  | some n =>
    obtain ⟨i,_,rfl⟩ := List.mem_map.mp (List.mem_of_find?_eq_some found)
    exact marked_append _

theorem marked_assignFrom {reserved taken claimed : List String} {results : List GenerationResult}
    (marked : ∀ r ∈ results, Marked r.hintName) :
    ∀ r ∈ assignFrom reserved taken claimed results, Marked r.hintName := by
  induction results generalizing taken claimed with
  | nil => nofun
  | cons r results ih =>
    have first := marked r List.mem_cons_self
    have rest : ∀ r ∈ results, Marked r.hintName := fun q member => marked q (List.mem_cons_of_mem r member)
    rw [assignFrom]
    split
    · exact List.forall_mem_cons.mpr ⟨first,ih rest⟩
    split
    · exact List.forall_mem_cons.mpr ⟨first,ih rest⟩
    · exact List.forall_mem_cons.mpr ⟨marked_free taken first,ih rest⟩

end HintNames

namespace Pipeline

open SourceUnit

variable {options : PipelineOptions} {inputs : Inputs} {report : RunReport}

theorem fixedUnits_new (options : PipelineOptions) (c : Collected) : ((new options).fixedUnits c).1 =
    SourceUnit.directive :: (options.catalog.map fun o => SourceUnit.catalog c.index o).toList := by
  have directive : (new options).directiveEntry.1 = SourceUnit.directive := rfl
  have table : (new options).directiveEntry.2.1.All fun key _ _ => key ≠ "catalog" :=
    Memo.getOrCompute_all Memo.all_empty .zero (by decide)
  have catalog : ∀ o, ((new options).catalogEntry c o).1 = SourceUnit.catalog c.index o := by
    intro o
    rw [catalogEntry,Memo.getOrCompute_value]
    cases found : (new options).directiveEntry.2.1.fresh? "catalog" (.ofBytes (c.catalogHashed o)) with
    | none => rfl
    | some u => exact absurd rfl (Memo.fresh?_all table found)
  rw [fixedUnits_fst,directive]
  simp only [catalog]
  rfl

theorem generated_new (options : PipelineOptions) (inputs : Inputs) (c : Collected) :
    (new options).generated inputs c =
      (Declaration.select inputs.declarations).map fun d => d.analyze.generate c.index options.emit := by
  simp only [generated,new,Memo.outputs_empty,resultItems,analyzed,declarationItems,List.map_map]
  rfl

/-- The results of a new pipeline, apart from what their units are called. -/
theorem map_named_new {α : Type} {f : GenerationResult → α} (blind : ∀ r name, f { r with hintName := name } = f r)
    (options : PipelineOptions) (inputs : Inputs) (c : Collected) : ((new options).named inputs c).map f =
      (Declaration.select inputs.declarations).map fun d => f (d.analyze.generate c.index options.emit) := by
  rw [named,HintNames.assign,HintNames.map_assignFrom blind,generated_new,List.map_map]
  rfl

theorem diagnostics_named_new (options : PipelineOptions) (inputs : Inputs) (c : Collected) :
    ((new options).named inputs c).flatMap GenerationResult.diagnostics =
      (Declaration.select inputs.declarations).flatMap fun d => (d.analyze.generate c.index options.emit).diagnostics := by
  rw [List.flatMap_def,map_named_new (fun _ _ => rfl),List.flatMap_def]

/-- A new pipeline's results and units are a matter of the declarations and of the icons. -/
theorem report_new_congr (options : PipelineOptions) {c c' : Collected} {inputs inputs' : Inputs}
    (icons : c.index = c'.index) (declarations : inputs.declarations = inputs'.declarations) :
    ((new options).report inputs c).results = ((new options).report inputs' c').results ∧
      ((new options).report inputs c).units = ((new options).report inputs' c').units := by
  have results : (new options).named inputs c = (new options).named inputs' c' := by
    rw [named,named,generated_new,generated_new,icons,declarations]
  have units : ((new options).report inputs c).units = ((new options).report inputs' c').units := by
    rw [report,report,fixedUnits_new,fixedUnits_new,results,icons]
  exact ⟨results,units⟩

theorem marked_generated (options : PipelineOptions) (inputs : Inputs) (c : Collected) :
    ∀ r ∈ (new options).generated inputs c, Marked r.hintName := by
  intro r member
  have member : r ∈ ((new options).resultItems inputs c).map fun i => i.input.generate c.index options.emit := member
  obtain ⟨i,_,rfl⟩ := List.mem_map.mp member
  rw [Analysis.generate]
  split <;> exact marked_append _

/-- The units of a new pipeline's run. -/
theorem units_new (ran : ((new options).run inputs).1 = .ok report) :
    ∃ (c : Collected) (definitions : List SourceUnit), (∀ u ∈ definitions, Marked u.hintName) ∧
      report.units = SourceUnit.directive :: (options.catalog.map fun o => SourceUnit.catalog c.index o).toList ++
        definitions ++ [SourceUnit.index ((SourceUnit.directive ::
          (options.catalog.map fun o => SourceUnit.catalog c.index o).toList ++ definitions).map
            SourceUnit.hintName)] := by
  cases done : (new options).collected inputs with
  | error e => simp [run_of_error done] at ran
  | ok c =>
    rw [run_of_ok done,Except.ok.injEq] at ran
    refine ⟨c,(((new options).named inputs c).filterMap GenerationResult.unit?).mergeSort unitPrecedes,?_,?_⟩
    · intro u member
      obtain ⟨r,inside,unit⟩ := List.mem_filterMap.mp (List.mem_mergeSort.mp member)
      have marked := HintNames.marked_assignFrom (marked_generated options inputs c) r inside
      obtain ⟨source,_,rfl⟩ := Option.map_eq_some_iff.mp unit
      exact marked
    · rw [← ran,Pipeline.report,assemble,fixedUnits_new]

theorem marked_units (ran : ((new options).run inputs).1 = .ok report) : ∀ u ∈ report.units, Marked u.hintName := by
  obtain ⟨c,definitions,marked,shape⟩ := units_new ran
  intro u member
  simp only [shape,List.cons_append,List.mem_cons,List.mem_append,Option.mem_toList,Option.map_eq_some_iff,
    List.not_mem_nil,or_false] at member
  rcases member with rfl | (⟨o,_,rfl⟩ | member) | rfl
  · exact marked_append "generate_svg_attribute"
  · exact marked_append _
  · exact marked u member
  · exact marked_append "svg_inline"

/-- Two units of one name differ. -/
theorem exists_clash (ran : ((new options).run inputs).1 = .ok report)
    (clash : ¬(report.units.map SourceUnit.hintName).Nodup) :
    ∃ u ∈ report.units, ∃ v ∈ report.units, u.hintName = v.hintName ∧ u.source ≠ v.source := by
  have first : (((new options).runAll []).run inputs).1 = .ok report := ran
  obtain ⟨names,named,distinct,unreserved⟩ := unit_names first
  rw [named,names_nodup_iff distinct unreserved] at clash
  obtain ⟨o,chosen,same⟩ : ∃ o, options.catalog = some o ∧
      (SourceUnit.catalogHint o.enumName = SourceUnit.directiveHint ∨
        SourceUnit.catalogHint o.enumName = SourceUnit.indexHint) := by
    by_contra none
    exact clash fun o chosen => ⟨fun same => none ⟨o,chosen,.inl same⟩,fun same => none ⟨o,chosen,.inr same⟩⟩
  obtain ⟨c,definitions,_,shape⟩ := units_new ran
  rw [chosen] at shape
  have differ : ∀ {u v : SourceUnit}, u.start ≠ v.start → u.source ≠ v.source :=
    fun apart same => apart (by rw [SourceUnit.start,SourceUnit.start,same])
  refine ⟨SourceUnit.catalog c.index o,by simp [shape],?_⟩
  rcases same with same | same
  · refine ⟨SourceUnit.directive,by simp [shape],same,differ ?_⟩
    rw [start_catalog,start_directive]
    decide
  · obtain ⟨hints,last⟩ : ∃ hints, SourceUnit.index (SourceUnit.directiveHint :: hints) ∈ report.units := by
      rw [shape]
      exact ⟨_,List.mem_append_right _ List.mem_cons_self⟩
    refine ⟨SourceUnit.index (SourceUnit.directiveHint :: hints),last,same,differ ?_⟩
    rw [start_catalog,start_index]
    decide

end Pipeline
end InlineIcons
