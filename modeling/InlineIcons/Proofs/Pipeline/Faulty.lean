import InlineIcons.Proofs.Analysis
import InlineIcons.Proofs.Pipeline.Skipped
import InlineIcons.Proofs.Pipeline.Units

/-! Files that do not load. A strict run ends at the first of them in path order; a lenient one reports it and goes on
as if it were not there. Files that load but come second to another one are reported in either way. -/
namespace InlineIcons

def PipelineOptions.handling (o : PipelineOptions) (strict : Bool) : PipelineOptions := { o with strictAssets := strict }

/-- A file that counts and does not load, while those before it in path order do. -/
structure Inputs.FirstFault (inputs : Inputs) (extension : String) (f : AssetFile) (e : AssetError) : Prop where
  counts : inputs.Counts extension f
  fails : f.load = .error e
  loads : ∀ g, inputs.Counts extension g → g.path.cmp f.path = .lt → ∃ a, g.load = .ok a

namespace AssetFile

/-- A report on a file for the sake of another one with the same identifier. -/
def Outdone (f : AssetFile) (g : Diagnostic) : Prop :=
  ∃ a owner, f.load = .ok a ∧ g = .assetSkipped f.path (Collected.duplicateReason a.identifier owner)

variable {files : List AssetFile} {f : AssetFile} {g : Diagnostic}

/-- Only a file that loads is reported for the sake of another one. -/
theorem outdone_of_skipped? {a : Asset} (loaded : f.load = .ok a) (reported : skipped? files f = some g) :
    f.Outdone g := by
  unfold skipped? skipReason? at reported
  rw [loaded] at reported
  obtain ⟨reason,why,rfl⟩ := Option.map_eq_some_iff.mp reported
  obtain ⟨owner,_,other⟩ := Option.bind_eq_some_iff.mp why
  split at other
  · cases other
  · exact ⟨a,owner.path,loaded,by rw [← Option.some.inj other]⟩

theorem loads_of_fault?_eq_none (none : fault? f = none) : ∃ a, f.load = .ok a := by
  cases loaded : f.load with
  | ok a => exact ⟨a,rfl⟩
  | error e => simp [fault?_eq_some_iff.mpr loaded] at none

end AssetFile

namespace Inputs

variable {inputs : Inputs} {extension : String} {e : AssetError}

/-- The first error of the selected files is that of the first fault, and nothing but files that others outdo are
reported before it. -/
theorem firstFault_of_findSome? (found : (AssetFile.select extension inputs.assets).findSome? AssetFile.fault? = some e) :
    ∃ f, inputs.FirstFault extension f e ∧ ∃ rivals others,
      (Collected.ofFiles (AssetFile.select extension inputs.assets)).diagnostics =
        rivals ++ .assetSkipped f.path e.message :: others ∧
      ∀ g ∈ rivals, ∃ h, inputs.Counts extension h ∧ h.path.cmp f.path = .lt ∧ h.Outdone g := by
  obtain ⟨first,f,rest,split,fault,none⟩ := List.findSome?_eq_some_iff.mp found
  have fails := AssetFile.fault?_eq_some_iff.mp fault
  have loads (g : AssetFile) (member : g ∈ first) : ∃ a, g.load = .ok a :=
    AssetFile.loads_of_fault?_eq_none (by simpa using none g member)
  have ordered := AssetFile.pairwise_select extension inputs.assets
  rw [split] at ordered
  obtain ⟨sooner,later⟩ := AssetFile.before_and_behind ordered
  have counts {g : AssetFile} (member : g ∈ first ++ f :: rest) : inputs.Counts extension g :=
    counts_iff.mpr (split ▸ member)
  refine ⟨f,⟨counts (by simp),fails,fun g counted before => ?_⟩,?_⟩
  · have listed := counts_iff.mp counted
    rw [split] at listed
    rcases List.mem_append.mp listed with inside | behind
    · exact loads g inside
    rcases List.mem_cons.mp behind with rfl | behind
    · exact absurd before (Path.cmp_asymm before)
    · exact absurd before (Path.cmp_asymm (later g behind))
  · rw [split]
    let files := first ++ f :: rest
    refine ⟨first.filterMap (AssetFile.skipped? files),rest.filterMap (AssetFile.skipped? files),?_,fun g member => ?_⟩
    · rw [Collected.diagnostics_ofFiles,List.filterMap_append,List.filterMap_cons,AssetFile.skipped?_of_fault fails]
    · obtain ⟨h,inside,reported⟩ := List.mem_filterMap.mp member
      obtain ⟨a,loaded⟩ := loads h inside
      exact ⟨h,counts (List.mem_append_left _ inside),sooner h inside,AssetFile.outdone_of_skipped? loaded reported⟩

end Inputs

namespace Pipeline

/-- Strict and lenient handling of the same inputs. The strict run fails if and only if a file that counts does not
load; its error is that of the first one in path order, and the lenient run reports this error before that of any
other. Otherwise both have the same report. -/
theorem run_strict_lenient (options : PipelineOptions) (inputs : Inputs) :
    ∃ report, ((new (options.handling false)).run inputs).1 = .ok report ∧
      ((∃ e, ((new (options.handling true)).run inputs).1 = .error e) ↔
        ∃ f, inputs.Counts options.assetExtension f ∧ ∃ e, f.load = .error e) ∧
      (∀ e, ((new (options.handling true)).run inputs).1 = .error e →
        ∃ f, inputs.FirstFault options.assetExtension f e ∧
          ∃ rivals others, report.diagnostics = rivals ++ .assetSkipped f.path e.message :: others ∧
            ∀ g ∈ rivals, ∃ h, inputs.Counts options.assetExtension h ∧ h.path.cmp f.path = .lt ∧ h.Outdone g) ∧
      ∀ report', ((new (options.handling true)).run inputs).1 = .ok report' → report' = report := by
  refine ⟨_,run_lenient rfl inputs,?_⟩
  cases found : (AssetFile.select options.assetExtension inputs.assets).findSome? AssetFile.fault? with
  | some e =>
    have ended : (new (options.handling true)).collected inputs = .error e := collected_of_fault rfl found
    have strict := congrArg Prod.fst (run_of_error ended)
    obtain ⟨f,stop,rivals,others,reported,outdone⟩ := Inputs.firstFault_of_findSome? found
    rw [strict]
    refine ⟨⟨fun _ => ⟨f,stop.counts,e,stop.fails⟩,fun _ => ⟨e,rfl⟩⟩,fun e' same => ?_,nofun⟩
    obtain rfl := Except.error.inj same
    rw [diagnostics_report]
    exact ⟨f,stop,rivals,others ++ _,(congrArg (· ++ _) reported).trans (List.append_assoc rivals (_ :: others) _),
      outdone⟩
  | none =>
    have done : (new (options.handling true)).collected inputs = .ok (.ofFiles _) := collected_of_no_fault found
    have strict := congrArg Prod.fst (run_of_ok done)
    rw [strict]
    refine ⟨⟨nofun,fun ⟨f,counts,e,fails⟩ => ?_⟩,nofun,fun _ ok => (Except.ok.inj ok).symm⟩
    have loads := List.findSome?_eq_none_iff.mp found f (Inputs.counts_iff.mp counts)
    simp [AssetFile.fault?_eq_some_iff.mpr fails] at loads

/-- Two files of one identifier and, before them, any that do not load, none of them where path order has it. -/
def mixedInputs (broken : List AssetFile) : Inputs :=
  ⟨broken ++ [⟨⟨"b/home.svg"⟩,"<svg/>"⟩,⟨⟨"a/home.svg"⟩,"<svg/>"⟩],[]⟩

def unclosedFile : AssetFile := ⟨⟨"c.svg"⟩,"<svg>"⟩

def brokenInputs : Inputs := mixedInputs [⟨⟨"d.svg"⟩,""⟩,unclosedFile]

/-- A strict run ends at the earlier one of two files that do not load, and never at a second file of an identifier. -/
theorem run_strict_mixedInputs :
    (∃ e report rivals others, ((new (PipelineOptions.standard.handling true)).run brokenInputs).1 = .error e ∧
      unclosedFile.load = .error e ∧
      ((new (PipelineOptions.standard.handling false)).run brokenInputs).1 = .ok report ∧
      report.diagnostics = rivals ++ .assetSkipped unclosedFile.path e.message :: others) ∧
    ∃ report, ((new (PipelineOptions.standard.handling true)).run (mixedInputs [])).1 = .ok report ∧
      ((new (PipelineOptions.standard.handling false)).run (mixedInputs [])).1 = .ok report := by
  have home : AssetFile.load ⟨⟨"b/home.svg"⟩,"<svg/>"⟩ = .ok ⟨"Home",[],""⟩ := by decide +kernel
  have home' : AssetFile.load ⟨⟨"a/home.svg"⟩,"<svg/>"⟩ = .ok ⟨"Home",[],""⟩ := by decide +kernel
  have fails : unclosedFile.load = .error (.malformed ⟨"c.svg"⟩ 0 "unclosed element at end of input") := by
    decide +kernel
  have counts : brokenInputs.Counts "svg" unclosedFile := by
    unfold Inputs.Counts
    decide +kernel
  constructor
  · obtain ⟨report,ran,strict,first,_⟩ := run_strict_lenient .standard brokenInputs
    obtain ⟨e,ended⟩ := strict.mpr ⟨unclosedFile,counts,_,fails⟩
    obtain ⟨f,stop,rivals,others,reported,_⟩ := first e ended
    have listed := stop.counts.mem
    simp only [brokenInputs,mixedInputs,List.cons_append,List.nil_append,List.mem_cons,List.not_mem_nil,
      or_false] at listed
    obtain rfl : f = unclosedFile := by
      rcases listed with rfl | same | rfl | rfl
      · obtain ⟨a,loaded⟩ := stop.loads unclosedFile counts (by decide +kernel)
        cases fails.symm.trans loaded
      · exact same
      · cases home.symm.trans stop.fails
      · cases home'.symm.trans stop.fails
    exact ⟨e,report,rivals,others,ended,stop.fails,ran,reported⟩
  · obtain ⟨report,ran,strict,_,same⟩ := run_strict_lenient .standard (mixedInputs [])
    cases ended : ((new (PipelineOptions.standard.handling true)).run (mixedInputs [])).1 with
    | ok report' => exact ⟨report,congrArg Except.ok (same report' ended),ran⟩
    | error e =>
      obtain ⟨f,counts,e,fails⟩ := strict.mp ⟨e,ended⟩
      rcases List.mem_pair.mp counts.mem with rfl | rfl
      · cases home.symm.trans fails
      · cases home'.symm.trans fails

/-- What one more file that does not load brings: the results and the units stay, and the reports get a single one on
this file, behind those on files before it and before those on files behind it. -/
theorem run_adding_faulty {options : PipelineOptions} {before after : Inputs} {asset : AssetFile} {e : AssetError}
    (lenient : options.strictAssets = false) (adds : before.Adds asset after)
    (extended : asset.path.hasExtension options.assetExtension) (fails : asset.load = .error e) :
    ∃ report report', ((new options).run before).1 = .ok report ∧ ((new options).run after).1 = .ok report' ∧
      report'.results = report.results ∧ report'.units = report.units ∧
      report'.diagnostics.filter (·.skips asset.path) = [.assetSkipped asset.path e.message] ∧
      ∃ head tail, report.diagnostics = head ++ tail ∧
        report'.diagnostics = head ++ .assetSkipped asset.path e.message :: tail ∧
        (∀ g ∈ head, g.code = .assetSkipped ∧ g.location.file.cmp asset.path = .lt) ∧
        ∀ g ∈ tail, g.code = .assetSkipped → asset.path.cmp g.location.file = .lt := by
  obtain ⟨first,rest,old,new⟩ := adds.select_insert extended
  have ordered := AssetFile.pairwise_select options.assetExtension after.assets
  rw [new] at ordered
  obtain ⟨sooner,later⟩ := AssetFile.before_and_behind ordered
  obtain ⟨providers,reported,reported'⟩ := Collected.ofFiles_insert fails first rest
  have icons : (Collected.ofFiles (first ++ asset :: rest)).index = (Collected.ofFiles (first ++ rest)).index := by
    rw [Collected.index,Collected.index,providers]
  obtain ⟨results,units⟩ := report_new_congr options icons adds.declarations
  have single := filter_skips_report options (adds.mem_select extended)
  rw [AssetFile.skipped?_of_fault fails,new] at single
  refine ⟨_,_,run_lenient lenient before,run_lenient lenient after,?_⟩
  rw [old,new]
  let files := first ++ rest
  let index := (Collected.ofFiles files).index
  refine ⟨results,units,single,first.filterMap (AssetFile.skipped? files),rest.filterMap (AssetFile.skipped? files) ++
    (Declaration.select before.declarations).flatMap fun d => (d.analyze.generate index options.emit).diagnostics,
    ?_,?_,fun g member => ?_,fun g member skips => ?_⟩
  · rw [diagnostics_report,reported,diagnostics_named_new,List.append_assoc]
  · rw [diagnostics_report,reported',diagnostics_named_new,icons,adds.declarations,List.append_assoc,List.cons_append]
  · obtain ⟨f,inside,reason,rfl⟩ := Collected.exists_of_mem_skips member
    exact ⟨rfl,sooner f inside⟩
  · rcases List.mem_append.mp member with member | member
    · obtain ⟨f,inside,reason,rfl⟩ := Collected.exists_of_mem_skips member
      exact later f inside
    · obtain ⟨d,_,member⟩ := List.mem_flatMap.mp member
      exact absurd skips (Declaration.code_of_mem_generate member)

/-- Between two files of one identifier there comes a third one that does not load, of the same identifier, for which
a definition asks. -/
def contestedInputs (files : List AssetFile) : Inputs where
  assets := ⟨⟨"c/home.svg"⟩,"<svg><g/></svg>"⟩ :: files ++ [⟨⟨"a/home.svg"⟩,"<svg/>"⟩]
  declarations := [{
    namespaceName := ""
    typeName := "Icon"
    directive := ⟨"kind","extras",.none⟩
    properties := [⟨"kind",.ofEnum ⟨"","Kind",["Home"]⟩,.none⟩,⟨"extras",.other "Extras",.none⟩]
    location := .none }]

def brokenFile : AssetFile := ⟨⟨"b/home.svg"⟩,"<svg>"⟩

theorem run_adding_brokenFile : (contestedInputs []).Adds brokenFile (contestedInputs [brokenFile]) ∧
    ∃ e report report', brokenFile.load = .error e ∧ ((new .standard).run (contestedInputs [])).1 = .ok report ∧
      ((new .standard).run (contestedInputs [brokenFile])).1 = .ok report' ∧ report'.results = report.results ∧
      report'.units = report.units ∧
      report'.diagnostics.filter (·.skips brokenFile.path) = [.assetSkipped brokenFile.path e.message] := by
  have adds : (contestedInputs []).Adds brokenFile (contestedInputs [brokenFile]) := by
    refine ⟨rfl,⟨[⟨⟨"c/home.svg"⟩,"<svg><g/></svg>"⟩],[⟨⟨"a/home.svg"⟩,"<svg/>"⟩],rfl,rfl⟩,?_⟩
    decide +kernel
  have fails : brokenFile.load = .error (.malformed ⟨"b/home.svg"⟩ 0 "unclosed element at end of input") := by
    decide +kernel
  have lenient : PipelineOptions.standard.strictAssets = false := rfl
  obtain ⟨report,report',ran,ran',results,units,single,_⟩ :=
    run_adding_faulty lenient adds (by decide +kernel) fails
  exact ⟨adds,_,report,report',fails,ran,ran',results,units,single⟩

end Pipeline
end InlineIcons
