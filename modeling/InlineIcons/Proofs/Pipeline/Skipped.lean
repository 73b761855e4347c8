import InlineIcons.Proofs.Analysis
import InlineIcons.Proofs.Pipeline.Incremental
import InlineIcons.Proofs.Pipeline.Selected
import InlineIcons.Proofs.Pipeline.Units

/-! What becomes of each file among those collected: it provides the icon of its identifier, or it is reported.
Whether a run is strict matters only if a file does not load. -/
namespace InlineIcons

def Diagnostic.skips (path : Path) (g : Diagnostic) : Bool := g.code = .assetSkipped && g.args.head? = some path.text

theorem Diagnostic.skips_assetSkipped (path other : Path) (reason : String) :
    (assetSkipped other reason).skips path ↔ other = path := by
  cases path
  cases other
  simp [skips,assetSkipped]

namespace AssetFile

def fault? (f : AssetFile) : Option AssetError :=
  match f.load with
  | .ok _ => none
  | .error e => some e

/-- A file provides its identifier if it is the first of the files that is loaded with it. -/
def providing? (files : List AssetFile) (f : AssetFile) : Option Provider :=
  match f.load with
  | .ok a => if files.find? (provides a.identifier) = some f then some ⟨a,f.path,f.fingerprint⟩ else none
  | .error _ => none

/-- Why a file is skipped: it does not load, or another one provides its identifier. -/
def skipReason? (files : List AssetFile) (f : AssetFile) : Option String :=
  match f.load with
  | .ok a => (files.find? (provides a.identifier)).bind fun owner =>
      if owner = f then none else some (Collected.duplicateReason a.identifier owner.path)
  | .error e => some e.message

def skipped? (files : List AssetFile) (f : AssetFile) : Option Diagnostic :=
  (skipReason? files f).map (.assetSkipped f.path)

variable {files : List AssetFile} {f : AssetFile} {a : Asset} {e : AssetError}

theorem fault?_eq_some_iff : f.fault? = some e ↔ f.load = .error e := by
  unfold fault?
  cases f.load <;> simp

theorem provides_iff (loaded : f.load = .ok a) (identifier : String) :
    f.provides identifier ↔ a.identifier = identifier := by
  unfold provides
  simp [loaded]

theorem not_provides_of_fault (fails : f.load = .error e) (identifier : String) : f.provides identifier = false := by
  unfold provides
  rw [fails]

theorem exists_load_of_provides {identifier : String} (provided : f.provides identifier) :
    ∃ a, f.load = .ok a ∧ a.identifier = identifier := by
  cases loaded : f.load with
  | ok a => exact ⟨a,rfl,(provides_iff loaded identifier).mp provided⟩
  | error e => simp [not_provides_of_fault loaded] at provided

theorem exists_find?_of_load (member : f ∈ files) (loaded : f.load = .ok a) :
    ∃ owner, files.find? (provides a.identifier) = some owner :=
  Option.isSome_iff_exists.mp (List.find?_isSome.mpr ⟨f,member,(provides_iff loaded _).mpr rfl⟩)

/-- Which file provides an identifier is settled by the files up to any that is loaded with it. -/
theorem find?_append_of_mem (member : f ∈ files) (loaded : f.load = .ok a) (more : List AssetFile) :
    (files ++ more).find? (provides a.identifier) = files.find? (provides a.identifier) := by
  obtain ⟨owner,found⟩ := exists_find?_of_load member loaded
  rw [List.find?_append,found,Option.some_or]

theorem providing?_append (member : f ∈ files) (more : List AssetFile) :
    providing? (files ++ more) f = providing? files f := by
  unfold providing?
  cases loaded : f.load with
  | ok a => simp only [find?_append_of_mem member loaded]
  | error e => rfl

theorem skipped?_append (member : f ∈ files) (more : List AssetFile) :
    skipped? (files ++ more) f = skipped? files f := by
  unfold skipped? skipReason?
  cases loaded : f.load with
  | ok a => simp only [find?_append_of_mem member loaded]
  | error e => rfl

theorem providing?_congr {others : List AssetFile}
    (same : ∀ identifier, files.find? (provides identifier) = others.find? (provides identifier)) :
    providing? files = providing? others := by
  funext f
  unfold providing?
  simp only [same]

theorem skipped?_congr {others : List AssetFile}
    (same : ∀ identifier, files.find? (provides identifier) = others.find? (provides identifier)) :
    skipped? files = skipped? others := by
  funext f
  unfold skipped? skipReason?
  simp only [same]

theorem providing?_eq_some_iff {p : Provider} : providing? files f = some p ↔
    files.find? (provides p.asset.identifier) = some f ∧ f.load = .ok p.asset ∧ p.path = f.path ∧
      p.fingerprint = f.fingerprint := by
  obtain ⟨asset,path,fingerprint⟩ := p
  unfold providing?
  cases loaded : f.load with
  | error e => simp
  | ok a =>
    simp only [Option.ite_none_right_eq_some,Option.some.injEq,Provider.mk.injEq,Except.ok.injEq]
    constructor
    · rintro ⟨first,rfl,rfl,rfl⟩
      exact ⟨first,rfl,rfl,rfl⟩
    · rintro ⟨first,rfl,rfl,rfl⟩
      exact ⟨first,rfl,rfl,rfl⟩

theorem providing?_of_fault (fails : f.load = .error e) : providing? files f = none := by
  unfold providing?
  rw [fails]

theorem skipped?_of_fault (fails : f.load = .error e) : skipped? files f = some (.assetSkipped f.path e.message) := by
  unfold skipped? skipReason?
  rw [fails]
  rfl

end AssetFile

namespace Collected

open AssetFile

variable {files : List AssetFile} {f : AssetFile} {a : Asset} {e : AssetError} {p : Provider}

/-- The providers among some files and the reports of the others, both in the order of the files. -/
def ofFiles (files : List AssetFile) : Collected :=
  ⟨files.filterMap (providing? files),files.filterMap (skipped? files)⟩

@[simp] theorem diagnostics_ofFiles (files : List AssetFile) :
    (ofFiles files).diagnostics = files.filterMap (skipped? files) := rfl

theorem exists_of_mem_skips {part : List AssetFile} {g : Diagnostic}
    (member : g ∈ part.filterMap (skipped? files)) : ∃ f ∈ part, ∃ reason, g = .assetSkipped f.path reason := by
  obtain ⟨f,inside,reported⟩ := List.mem_filterMap.mp member
  obtain ⟨reason,_,rfl⟩ := Option.map_eq_some_iff.mp reported
  exact ⟨f,inside,reason,rfl⟩

def OnlySkips (c : Collected) : Prop := ∀ g ∈ c.diagnostics, g.code = .assetSkipped

theorem ofFiles_onlySkips (files : List AssetFile) : (ofFiles files).OnlySkips := by
  intro g member
  obtain ⟨f,_,reason,rfl⟩ := exists_of_mem_skips member
  rfl

/-- Of all reports one at most is on a given file. -/
theorem filter_skips_ofFiles (distinct : (files.map (·.path.components)).Nodup) (member : f ∈ files) :
    (ofFiles files).diagnostics.filter (·.skips f.path) = (skipped? files f).toList := by
  obtain ⟨first,rest,whole⟩ := List.append_of_mem member
  rw [whole] at distinct
  have silent : ∀ part ⊆ first ++ rest, (part.filterMap (skipped? files)).filter (·.skips f.path) = [] := by
    intro part inside
    refine List.filter_eq_nil_iff.mpr fun g reported named => ?_
    obtain ⟨h,listed,reason,rfl⟩ := exists_of_mem_skips reported
    have same : h.path = f.path := (Diagnostic.skips_assetSkipped ..).mp named
    exact apart_of_nodup distinct h (inside listed) (congrArg Path.components same)
  have before := silent first (List.subset_append_left first rest)
  have after := silent rest (List.subset_append_right first rest)
  have own : (skipped? files f).toList.filter (·.skips f.path) = (skipped? files f).toList := by
    refine List.filter_eq_self.mpr fun g listed => ?_
    obtain ⟨reason,_,rfl⟩ := Option.map_eq_some_iff.mp (Option.mem_toList.mp listed)
    exact (Diagnostic.skips_assetSkipped ..).mpr rfl
  have split : (ofFiles files).diagnostics =
      first.filterMap (skipped? files) ++ ((skipped? files f).toList ++ rest.filterMap (skipped? files)) := by
    have parts : files.filterMap (skipped? files) = (first ++ f :: rest).filterMap (skipped? files) := by rw [← whole]
    rw [ofFiles,parts,List.filterMap_append,List.filterMap_cons]
    cases skipped? files f <;> rfl
  rw [split,List.filter_append,List.filter_append,before,own,after,List.nil_append,List.append_nil]

theorem mem_providers_ofFiles : p ∈ (ofFiles files).providers ↔ ∃ f,
    files.find? (provides p.asset.identifier) = some f ∧ f.load = .ok p.asset ∧ p.path = f.path ∧
      p.fingerprint = f.fingerprint := by
  simp only [ofFiles,List.mem_filterMap,providing?_eq_some_iff]
  constructor
  · rintro ⟨f,_,first⟩
    exact ⟨f,first⟩
  · rintro ⟨f,first,rest⟩
    exact ⟨f,List.mem_of_find?_eq_some first,first,rest⟩

theorem nodup_providers_ofFiles (distinct : files.Nodup) :
    ((ofFiles files).providers.map (·.asset.identifier)).Nodup := by
  refine List.pairwise_map.mpr (List.pairwise_filterMap.mpr (distinct.imp fun apart p own q own' same => apart ?_))
  have first := (providing?_eq_some_iff.mp own).1
  rw [same,(providing?_eq_some_iff.mp own').1] at first
  exact (Option.some.inj first).symm

theorem ofFiles_from (distinct : files.Nodup) : (ofFiles files).From (· ∈ files) := by
  refine ⟨nodup_providers_ofFiles distinct,fun p member => ?_⟩
  obtain ⟨f,first,loaded,path,print⟩ := mem_providers_ofFiles.mp member
  exact ⟨f,List.mem_of_find?_eq_some first,loaded,path,print⟩

theorem provider?_ofFiles_none {identifier : String} (absent : files.find? (provides identifier) = none) :
    (ofFiles files).provider? identifier = none := by
  refine Option.eq_none_iff_forall_ne_some.mpr fun p found => ?_
  have named : p.asset.identifier = identifier := by simpa using List.find?_some found
  obtain ⟨g,first,_⟩ := mem_providers_ofFiles.mp (List.mem_of_find?_eq_some found)
  simp [named,absent] at first

theorem provider?_ofFiles_some (distinct : files.Nodup) {identifier : String}
    (first : files.find? (provides identifier) = some f) :
    ∃ a, f.load = .ok a ∧ (ofFiles files).provider? identifier = some ⟨a,f.path,f.fingerprint⟩ := by
  obtain ⟨a,loaded,rfl⟩ := exists_load_of_provides (List.find?_some first)
  have member : ⟨a,f.path,f.fingerprint⟩ ∈ (ofFiles files).providers :=
    mem_providers_ofFiles.mpr ⟨f,first,loaded,rfl,rfl⟩
  exact ⟨a,loaded,(Groups.find?_key_iff (nodup_providers_ofFiles distinct) _).mpr member⟩

theorem fingerprint?_ofFiles (distinct : files.Nodup) (identifier : String) :
    (ofFiles files).fingerprint? identifier = (files.find? (provides identifier)).map AssetFile.fingerprint := by
  rw [fingerprint?]
  cases first : files.find? (provides identifier) with
  | none => simp [provider?_ofFiles_none first]
  | some f =>
    obtain ⟨a,_,found⟩ := provider?_ofFiles_some distinct first
    simp [found]

/-- A file that comes last leaves what is known of the others. -/
theorem ofFiles_concat (files : List AssetFile) (f : AssetFile) : ofFiles (files ++ [f]) =
    ⟨(ofFiles files).providers ++ (providing? (files ++ [f]) f).toList,
      (ofFiles files).diagnostics ++ (skipped? (files ++ [f]) f).toList⟩ := by
  have providers : files.filterMap (providing? (files ++ [f])) = files.filterMap (providing? files) :=
    List.filterMap_congr fun g member => providing?_append member [f]
  have skips : files.filterMap (skipped? (files ++ [f])) = files.filterMap (skipped? files) :=
    List.filterMap_congr fun g member => skipped?_append member [f]
  simp only [ofFiles,List.filterMap_append,providers,skips]
  rfl

/-- A file that does not load neither takes an identifier nor leaves one to others, wherever it stands; all it
brings is its own report. -/
theorem ofFiles_insert (fails : f.load = .error e) (first rest : List AssetFile) :
    (ofFiles (first ++ f :: rest)).providers = (ofFiles (first ++ rest)).providers ∧
      (ofFiles (first ++ rest)).diagnostics =
        first.filterMap (skipped? (first ++ rest)) ++ rest.filterMap (skipped? (first ++ rest)) ∧
      (ofFiles (first ++ f :: rest)).diagnostics = first.filterMap (skipped? (first ++ rest)) ++
        .assetSkipped f.path e.message :: rest.filterMap (skipped? (first ++ rest)) := by
  have same : ∀ identifier, (first ++ f :: rest).find? (provides identifier) =
      (first ++ rest).find? (provides identifier) := by
    intro identifier
    have silent := not_provides_of_fault fails identifier
    rw [List.find?_append,List.find?_append,List.find?_cons_of_neg (by simp [silent])]
  have reported : skipped? (first ++ rest) f = some (.assetSkipped f.path e.message) := skipped?_of_fault fails
  have providing : providing? (first ++ rest) f = none := providing?_of_fault fails
  simp only [ofFiles,providing?_congr same,skipped?_congr same,List.filterMap_append,List.filterMap_cons,reported,
    providing,and_self]

theorem skip_ofFiles (fails : f.load = .error e) :
    (ofFiles files).skip f.path e.message = ofFiles (files ++ [f]) := by
  have silent : providing? (files ++ [f]) f = none := providing?_of_fault fails
  have reported : skipped? (files ++ [f]) f = some (.assetSkipped f.path e.message) := skipped?_of_fault fails
  simp [ofFiles_concat,skip,silent,reported]

theorem addAsset_ofFiles (distinct : (files ++ [f]).Nodup) (loaded : f.load = .ok a) :
    (ofFiles files).addAsset f a = ofFiles (files ++ [f]) := by
  obtain ⟨others,_,apart⟩ := List.nodup_append.mp distinct
  have provided : f.provides a.identifier = true := (provides_iff loaded _).mpr rfl
  rw [ofFiles_concat,addAsset]
  cases first : files.find? (provides a.identifier) with
  | none =>
    have vacant := provider?_ofFiles_none first
    have own : (files ++ [f]).find? (provides a.identifier) = some f := by simp [List.find?_append,first,provided]
    unfold providing? skipped? skipReason?
    simp [vacant,loaded,own]
  | some g =>
    obtain ⟨_,_,taken⟩ := provider?_ofFiles_some others first
    have owner : (files ++ [f]).find? (provides a.identifier) = some g := by simp [List.find?_append,first]
    have other : g ≠ f := apart g (List.mem_of_find?_eq_some first) f List.mem_cons_self
    unfold providing? skipped? skipReason?
    simp [taken,skip,loaded,owner,other]

/-- Where files that do not load are skipped, collecting comes to its end. -/
theorem addAll_ofFiles {files rest : List AssetFile} (distinct : (files ++ rest).Nodup) :
    (ofFiles files).addAll false (rest.map fun f => (f,f.load)) = .ok (ofFiles (files ++ rest)) := by
  induction rest generalizing files with
  | nil => rw [List.map_nil,addAll,List.append_nil]
  | cons f rest ih =>
    have whole : files ++ f :: rest = (files ++ [f]) ++ rest := by simp
    rw [whole] at distinct ⊢
    rw [List.map_cons,← ih distinct]
    cases loaded : f.load with
    | ok a =>
      have here := distinct.sublist (List.sublist_append_left _ rest)
      rw [addAll,addAsset_ofFiles here loaded]
    | error e => rw [addAll,if_neg Bool.false_ne_true,skip_ofFiles loaded]

theorem addAll_empty (distinct : files.Nodup) :
    empty.addAll false (files.map fun f => (f,f.load)) = .ok (ofFiles files) := by
  have first : ([] ++ files).Nodup := distinct
  exact addAll_ofFiles first

/-- The first file that does not load ends a strict run; without one, there is nothing to be strict about. -/
theorem addAll_strict (c : Collected) (files : List AssetFile) : c.addAll true (files.map fun f => (f,f.load)) =
    match files.findSome? AssetFile.fault? with
    | some e => .error e
    | none => c.addAll false (files.map fun f => (f,f.load)) := by
  induction files generalizing c with
  | nil => rfl
  | cons f files ih =>
    rw [List.map_cons,List.findSome?_cons]
    unfold fault?
    cases loaded : f.load with
    | ok a => exact ih (c.addAsset f a)
    | error e => rfl

end Collected

namespace Pipeline

variable {options : PipelineOptions} {inputs : Inputs} {c : Collected}

theorem collected_lenient (lenient : options.strictAssets = false) (inputs : Inputs) :
    (new options).collected inputs = .ok (.ofFiles (AssetFile.select options.assetExtension inputs.assets)) := by
  rw [collected,loaded_new,options_new,lenient,Collected.addAll_empty (AssetFile.distinct_select ..)]

theorem run_lenient (lenient : options.strictAssets = false) (inputs : Inputs) : ((new options).run inputs).1 =
    .ok ((new options).report inputs (.ofFiles (AssetFile.select options.assetExtension inputs.assets))) :=
  congrArg Prod.fst (run_of_ok (collected_lenient lenient inputs))

theorem collected_of_fault (strict : options.strictAssets = true) {e : AssetError}
    (found : (AssetFile.select options.assetExtension inputs.assets).findSome? AssetFile.fault? = some e) :
    (new options).collected inputs = .error e := by
  rw [collected,loaded_new,options_new,strict,Collected.addAll_strict,found]

theorem collected_of_no_fault
    (none : (AssetFile.select options.assetExtension inputs.assets).findSome? AssetFile.fault? = none) :
    (new options).collected inputs = .ok (.ofFiles (AssetFile.select options.assetExtension inputs.assets)) := by
  cases handling : options.strictAssets with
  | false => exact collected_lenient handling inputs
  | true =>
    rw [collected,loaded_new,options_new,handling,Collected.addAll_strict,none]
    exact Collected.addAll_empty (AssetFile.distinct_select ..)

/-- A run that does not fail collects the same, strict or not. -/
theorem collected_of_ok (done : (new options).collected inputs = .ok c) :
    c = .ofFiles (AssetFile.select options.assetExtension inputs.assets) := by
  cases handling : options.strictAssets with
  | false => exact (Except.ok.inj ((collected_lenient handling inputs).symm.trans done)).symm
  | true =>
    cases found : (AssetFile.select options.assetExtension inputs.assets).findSome? AssetFile.fault? with
    | some e => cases (collected_of_fault handling found).symm.trans done
    | none => exact (Except.ok.inj ((collected_of_no_fault found).symm.trans done)).symm

/-- Results never report a file as skipped. -/
theorem code_of_mem_named {r : GenerationResult} (member : r ∈ (new options).named inputs c) {g : Diagnostic}
    (reported : g ∈ r.diagnostics) : g.code ≠ .assetSkipped := by
  have listed : r.diagnostics ∈ ((new options).named inputs c).map GenerationResult.diagnostics :=
    List.mem_map_of_mem member
  rw [map_named_new (fun _ _ => rfl)] at listed
  obtain ⟨d,_,same⟩ := List.mem_map.mp listed
  exact Declaration.code_of_mem_generate (same ▸ reported)

/-- All that a new pipeline reports on a file is that it is skipped, if it is. -/
theorem filter_skips_report (options : PipelineOptions) {f : AssetFile} (member : f ∈ AssetFile.select options.assetExtension inputs.assets) :
    ((new options).report inputs (.ofFiles (AssetFile.select options.assetExtension inputs.assets))).diagnostics.filter
      (·.skips f.path) = (AssetFile.skipped? (AssetFile.select options.assetExtension inputs.assets) f).toList := by
  have others : ∀ c, (((new options).named inputs c).flatMap GenerationResult.diagnostics).filter
      (·.skips f.path) = [] := by
    refine fun c => List.filter_eq_nil_iff.mpr fun g reported skips => ?_
    obtain ⟨r,inside,reported⟩ := List.mem_flatMap.mp reported
    have code : g.code = .assetSkipped := by simp [Diagnostic.skips] at skips; exact skips.1
    exact code_of_mem_named inside reported code
  rw [diagnostics_report,List.filter_append,others,List.append_nil]
  exact Collected.filter_skips_ofFiles (AssetFile.nodup_select ..) member

end Pipeline
end InlineIcons
