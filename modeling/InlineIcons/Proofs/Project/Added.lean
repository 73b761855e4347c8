import InlineIcons.Proofs.Pipeline.Skipped
import InlineIcons.Proofs.Project
import InlineIcons.Proofs.Scan.Added

/-! What one more file among the assets costs. A file that is no icon costs itself, as long as it is text; one that is
no text ends the scan before any file is looked at. -/
namespace InlineIcons

namespace Pipeline

variable {options : PipelineOptions} {before after : Inputs} {asset : AssetFile} {e : AssetError}

/-- What a new pipeline reports where files that do not load are skipped. -/
def skippingReport (options : PipelineOptions) (inputs : Inputs) : RunReport :=
  (new options).report inputs (.ofFiles (AssetFile.select options.assetExtension inputs.assets))

section Adds

variable (adds : before.Adds asset after) (extended : asset.path.hasExtension options.assetExtension)
  (fails : asset.load = .error e)

include adds extended fails

/-- A file that does not load leaves the results and the units as they are. -/
theorem skippingReport_adding_faulty :
    (skippingReport options after).results = (skippingReport options before).results ∧
      (skippingReport options after).units = (skippingReport options before).units := by
  obtain ⟨first,rest,old,new⟩ := adds.select_insert extended
  obtain ⟨providers,_⟩ := Collected.ofFiles_insert fails first rest
  have icons : (Collected.ofFiles (first ++ asset :: rest)).index = (Collected.ofFiles (first ++ rest)).index := by
    rw [Collected.index,Collected.index,providers]
  rw [skippingReport,skippingReport,old,new]
  exact report_new_congr options icons adds.declarations

/-- It is reported as skipped, once. -/
theorem skips_skippingReport :
    (skippingReport options after).diagnostics.filter (·.skips asset.path) = [.assetSkipped asset.path e.message] := by
  rw [skippingReport,filter_skips_report options (adds.mem_select extended),AssetFile.skipped?_of_fault fails]
  rfl

end Adds
end Pipeline

namespace Project

open Source FileTree

variable {s : Settings} {t t' : FileTree} {g : Generated}

def assetScan (s : Settings) : Scan := .withExtension s.input.assets s.input.assetExtension

def foundIn (s : Settings) (assets sources : List TextFile) : ProjectInputs :=
  ⟨inputsOf s assets sources,(CrateFindings.ofFiles s.input.directive sources).errors,sources.length⟩

theorem collect_eq (s : Settings) (t : FileTree) : collect s t =
    match (assetScan s).filesOrNone t,sourceScan s with
    | .error e,_ => .error e
    | _,.error e => .error e
    | .ok assets,.ok scan => (scan.filesOrNone t).map (foundIn s assets) := by
  have scanned : scan s t = do
    let assets ← (assetScan s).filesOrNone t
    let sources ← (← sourceScan s).filesOrNone t
    return (assets,sources) := rfl
  rw [collect,scanned]
  cases (assetScan s).filesOrNone t with
  | error e => rfl
  | ok assets =>
    cases sourceScan s with
    | error e => rfl
    | ok scan =>
      simp only [bind,Except.bind,pure,Except.pure]
      cases scan.filesOrNone t <;> rfl

/-- What a run gives that skips files which do not load. -/
def skippingRun (s : Settings) (found : ProjectInputs) : Generated :=
  ⟨Pipeline.skippingReport s.pipelineOptions found.inputs,found.parseErrors,found.inputs.assets.length,found.sources,
    found.inputs.declarations.length⟩

/-- Where files that do not load are skipped, only a scan ends a run. -/
theorem generate_skipping (lenient : s.generation.strictAssets = false) (t : FileTree) :
    ((new s).generate t).1 = match collect s t with
      | .error e => .error (.scan e)
      | .ok found => .ok (skippingRun s found) := by
  rw [generate_eq]
  cases collect s t with
  | error e => rfl
  | ok found =>
    have ran : ((Pipeline.new s.pipelineOptions).run found.inputs).1 = .ok _ := Pipeline.run_lenient lenient found.inputs
    simp only [ran]
    rfl

theorem generate_ok_iff (lenient : s.generation.strictAssets = false) : ((new s).generate t).1 = .ok g ↔
    ∃ assets scan sources, (assetScan s).filesOrNone t = .ok assets ∧ sourceScan s = .ok scan ∧
      scan.filesOrNone t = .ok sources ∧ g = skippingRun s (foundIn s assets sources) := by
  rw [generate_skipping lenient,collect_eq]
  cases (assetScan s).filesOrNone t with
  | error e => simp
  | ok assets =>
    cases sourceScan s with
    | error e => simp
    | ok scan =>
      simp only [Except.ok.injEq,exists_eq_left',exists_and_left]
      cases scan.filesOrNone t with
      | error e => simp [Except.map]
      | ok sources => simp [Except.map,eq_comm]

/-- A project with one more file below the folder of assets. -/
structure GainsAsset (s : Settings) (t t' : FileTree) (root above : Place) (name : List Char) (bytes : List UInt8) :
    Prop where
  reached : t.reach s.input.assets = .ok root
  gains : Gains t t' (root ++ above) name bytes
  extended : (⟨String.ofList name⟩ : Path).hasExtension s.input.assetExtension = true

/-- Whether the scan for sources reads the file at a place. -/
def SourceTakes (s : Settings) (t : FileTree) (place : Place) : Prop :=
  ∃ scan, sourceScan s = .ok scan ∧ scan.Takes t place

namespace GainsAsset

def path (s : Settings) (above : Place) (name : List Char) : Path := s.input.assets.join ⟨Place.text (above ++ [name])⟩

variable {root above : Place} {name : List Char} {bytes : List UInt8}

theorem pathOf_eq : (assetScan s).pathOf (above ++ [name]) = path s above name := if_neg (by simp)

variable (more : GainsAsset s t t' root above name bytes)

include more

/-- A name with an extension is none that rules are read from. -/
theorem plain : name ∉ ruleNames := by
  intro rule
  have bare : ∀ rule ∈ ruleNames, (Path.cutExtension rule).2 = none := by decide
  have extended := more.extended
  rw [Path.hasExtension,Path.extension?,Path.fileName?_entry more.gains.entry,Option.bind_some,bare name rule] at extended
  cases extended

theorem hasExtension_path (formed : t.WellFormed) : (path s above name).hasExtension s.input.assetExtension = true := by
  have entries : ∀ n ∈ above ++ [name], IsEntry n := fun n member =>
    (more.gains.formed formed).entries_of_node? more.gains.node?_self n
      (List.append_assoc root .. ▸ List.mem_append_right root member)
  have file := Path.fileName?_join s.input.assets entries
  rw [← Path.fileName?_entry more.gains.entry] at file
  exact (Path.hasExtension_congr file _).trans more.extended

/-- The asset is read unless rules ignore it. -/
theorem takes_iff (formed : t.WellFormed) : (assetScan s).Takes t (root ++ above ++ [name]) ↔
    t.counts true root (above ++ [name]) = true := by
  constructor
  · rintro ⟨root',below,reached,same,counted,_⟩
    obtain rfl : root = root' := Except.ok.inj (more.reached.symm.trans reached)
    rw [List.append_assoc] at same
    exact List.append_cancel_left same ▸ counted
  · intro counted
    have accepted : (assetScan s).accepts (above ++ [name]) = true := by
      rw [Scan.accepts,pathOf_eq]
      simpa [assetScan,Scan.withExtension] using more.hasExtension_path formed
    exact ⟨root,_,more.reached,List.append_assoc ..,counted,accepted⟩

/-- An asset that is read stands among the others, unless it is no text. -/
theorem assetScan_eq (formed : t.WellFormed) {assets : List TextFile} (found : (assetScan s).filesOrNone t = .ok assets)
    (kept : t.counts true root (above ++ [name]) = true) : ∃ before after, assets = before ++ after ∧
      (assetScan s).filesOrNone t' = (match Text.ofUtf8? bytes with
        | some text => .ok (before ++ ⟨path s above name,⟨Place.text (above ++ [name])⟩,text⟩ :: after)
        | none => .error (.unreadable (path s above name) .notText)) ∧
      ∀ f ∈ assets, f.path.components ≠ (path s above name).components := by
  obtain ⟨root',below,before,after,reached,split,files,read,apart⟩ :=
    Scan.filesOrNone_of_takes more.gains more.plain formed found ((more.takes_iff formed).mpr kept)
  obtain rfl : root = root' := Except.ok.inj (more.reached.symm.trans reached)
  obtain rfl : above ++ [name] = below := List.append_cancel_left ((List.append_assoc ..).symm.trans split)
  rw [pathOf_eq] at apart
  refine ⟨before,after,files,?_,apart⟩
  rw [read,Scan.readBelow_self more.gains split,pathOf_eq]
  cases Text.ofUtf8? bytes <;> rfl

section Generated

variable (formed : t.WellFormed) (lenient : s.generation.strictAssets = false)
  (generated : ((new s).generate t).1 = .ok g)

include formed lenient generated

/-- Only a file that is no text and that one of the scans reads ends the run. -/
theorem generate_isOk_iff : (∃ g', ((new s).generate t').1 = .ok g') ↔ (Text.ofUtf8? bytes).isSome ∨
    ¬(t.counts true root (above ++ [name]) = true ∨ SourceTakes s t (root ++ above ++ [name])) := by
  obtain ⟨assets,scan,sources,found,chosen,found',rfl⟩ := (generate_ok_iff lenient).mp generated
  have first := Scan.filesOrNone_isOk_iff more.gains more.plain formed found
  have second := Scan.filesOrNone_isOk_iff more.gains more.plain formed found'
  have sourceTakes : SourceTakes s t (root ++ above ++ [name]) ↔ scan.Takes t (root ++ above ++ [name]) := by
    simp [SourceTakes,chosen]
  have both : (∃ g', ((new s).generate t').1 = .ok g') ↔
      (∃ files, (assetScan s).filesOrNone t' = .ok files) ∧ ∃ files, scan.filesOrNone t' = .ok files := by
    simp [generate_ok_iff lenient,chosen]
  rw [both,first,second,more.takes_iff formed,sourceTakes,not_or,or_and_left]

theorem generate_of_not_text (kept : t.counts true root (above ++ [name]) = true) (binary : Text.ofUtf8? bytes = none) :
    ((new s).generate t').1 = .error (.scan (.unreadable (path s above name) .notText)) := by
  obtain ⟨assets,scan,sources,found,chosen,found',rfl⟩ := (generate_ok_iff lenient).mp generated
  obtain ⟨before,after,_,read,_⟩ := more.assetScan_eq formed found kept
  rw [binary] at read
  rw [generate_skipping lenient,collect_eq,read]

theorem generate_of_unread (ignored : ¬t.counts true root (above ++ [name]) = true)
    (other : ¬SourceTakes s t (root ++ above ++ [name])) : ((new s).generate t').1 = .ok g := by
  obtain ⟨assets,scan,sources,found,chosen,found',rfl⟩ := (generate_ok_iff lenient).mp generated
  refine (generate_ok_iff lenient).mpr ⟨assets,scan,sources,?_,chosen,?_,rfl⟩
  · exact Scan.filesOrNone_of_not_takes more.gains more.plain formed found (mt (more.takes_iff formed).mp ignored)
  · exact Scan.filesOrNone_of_not_takes more.gains more.plain formed found' fun taken => other ⟨scan,chosen,taken⟩

/-- An asset that is text but no icon is reported, and the units stay as they are. -/
theorem generate_of_faulty {content : String} {e : AssetError} (kept : t.counts true root (above ++ [name]) = true)
    (text : Text.ofUtf8? bytes = some content) (fails : AssetFile.load ⟨path s above name,content⟩ = .error e) :
    ∃ g', ((new s).generate t').1 = .ok g' ∧
      g'.report.diagnostics.filter (·.skips (path s above name)) = [.assetSkipped (path s above name) e.message] ∧
      (¬SourceTakes s t (root ++ above ++ [name]) →
        g'.report.results = g.report.results ∧ g'.report.units = g.report.units) := by
  obtain ⟨g',ran⟩ := (more.generate_isOk_iff formed lenient generated).mpr (.inl (by simp [text]))
  obtain ⟨assets,scan,sources,found,chosen,found',rfl⟩ := (generate_ok_iff lenient).mp generated
  obtain ⟨before,after,rfl,read,apart⟩ := more.assetScan_eq formed found kept
  rw [text] at read
  obtain ⟨assets',scan',sources',found₁,chosen₁,found₂,rfl⟩ := (generate_ok_iff lenient).mp ran
  obtain rfl := Except.ok.inj (read.symm.trans found₁)
  obtain rfl := Except.ok.inj (chosen.symm.trans chosen₁)
  have extended : (path s above name).hasExtension s.pipelineOptions.assetExtension = true :=
    more.hasExtension_path formed
  have adds (sources : List TextFile) : (inputsOf s (before ++ after) sources).Adds ⟨path s above name,content⟩
      (inputsOf s (before ++ ⟨path s above name,⟨Place.text (above ++ [name])⟩,content⟩ :: after) sources) := by
    refine ⟨rfl,⟨before.map fun f => ⟨f.path,f.text⟩,after.map fun f => ⟨f.path,f.text⟩,by simp [inputsOf],by simp [inputsOf]⟩,?_⟩
    intro f member
    obtain ⟨file,inside,rfl⟩ := List.mem_map.mp member
    exact apart file inside
  refine ⟨_,ran,Pipeline.skips_skippingReport (adds sources') extended fails,fun other => ?_⟩
  have same := Scan.filesOrNone_of_not_takes more.gains more.plain formed found' fun taken => other ⟨scan,chosen,taken⟩
  obtain rfl := Except.ok.inj (same.symm.trans found₂)
  exact Pipeline.skippingReport_adding_faulty (adds sources) extended fails

end Generated
end GainsAsset

/-- What one more file in the folder of assets does to a run that ends well and skips what does not load. The run still
ends well unless the file is no text and is read. A file that rules ignore is not read, and costs nothing; of the
others, one that is no text ends the run, and one that is no icon is reported once and leaves the units as they are. -/
theorem generate_adding_asset {root above : Place} {name : List Char} {bytes : List UInt8} (formed : t.WellFormed)
    (lenient : s.generation.strictAssets = false) (generated : ((new s).generate t).1 = .ok g)
    (more : GainsAsset s t t' root above name bytes) :
    let path := GainsAsset.path s above name
    let kept := t.counts true root (above ++ [name]) = true
    let source := SourceTakes s t (root ++ above ++ [name])
    ((∃ g', ((new s).generate t').1 = .ok g') ↔ (Text.ofUtf8? bytes).isSome ∨ ¬(kept ∨ source)) ∧
      (¬kept → ¬source → ((new s).generate t').1 = .ok g) ∧
      (kept → Text.ofUtf8? bytes = none → ((new s).generate t').1 = .error (.scan (.unreadable path .notText))) ∧
      ∀ content e, kept → Text.ofUtf8? bytes = some content → AssetFile.load ⟨path,content⟩ = .error e →
        ∃ g', ((new s).generate t').1 = .ok g' ∧
          g'.report.diagnostics.filter (·.skips path) = [.assetSkipped path e.message] ∧
          (¬source → g'.report.results = g.report.results ∧ g'.report.units = g.report.units) :=
  ⟨more.generate_isOk_iff formed lenient generated,more.generate_of_unread formed lenient generated,
    more.generate_of_not_text formed lenient generated,fun _ _ => more.generate_of_faulty formed lenient generated⟩

def bare : FileTree :=
  ⟨[(["assets".toList],.folder),(["src".toList],.folder),(["generated".toList],.folder)],by decide⟩

theorem collect_bare : collect .standard bare = .ok ⟨⟨[],[]⟩,[],0⟩ := by
  have none : ∀ {scan : Scan} {n : List Char}, bare.reach scan.root = .ok [n] →
      bare.node? [n] = some .folder → bare.ruleFaultsAbove scan.git [n] = [] →
      bare.filesBelow scan.git [n] = [] → scan.filesOrNone bare = .ok [] := by
    intro scan n reached stands rules files
    rw [Scan.filesOrNone_eq reached,stands,rules]
    simp only [Scan.readChosen,Scan.chosen,files,List.filter_nil,List.mergeSort_nil]
    rfl
  have assets : (Scan.withExtension Settings.standard.input.assets Settings.standard.input.assetExtension).filesOrNone
      bare = .ok [] := none (n := "assets".toList) rfl rfl rfl rfl
  have chosen : sourceScan .standard = .ok (Scan.sources Settings.standard.input.sources) := rfl
  have sources : (Scan.sources Settings.standard.input.sources).filesOrNone bare = .ok [] :=
    none (n := "src".toList) rfl rfl rfl rfl
  have scanned : scan .standard bare = .ok ([],[]) := by
    simp only [scan,assets,chosen,sources,bind,Except.bind]
    rfl
  rw [collect,scanned]
  rfl

def bareWith (bytes : List UInt8) : FileTree := bare.put ["assets".toList,"bad.svg".toList] (.file bytes)

/-- A byte that is no text ends the run; an element that is not closed does not. -/
theorem generate_bareWith : ∃ g, ((new .standard).generate bare).1 = .ok g ∧
    ((new .standard).generate (bareWith [0xFF])).1 = .error (.scan (.unreadable ⟨"./assets/bad.svg"⟩ .notText)) ∧
    ∃ g' e, ((new .standard).generate (bareWith (Text.utf8 "<svg>"))).1 = .ok g' ∧
      g'.report.diagnostics.filter (·.skips ⟨"./assets/bad.svg"⟩) = [.assetSkipped ⟨"./assets/bad.svg"⟩ e] ∧
      g'.report.units = g.report.units := by
  have formed : bare.WellFormed := by constructor <;> decide
  have generated : ((new .standard).generate bare).1 = .ok (skippingRun .standard ⟨⟨[],[]⟩,[],0⟩) := by
    rw [generate_skipping rfl,collect_bare]
  have more (bytes : List UInt8) : GainsAsset .standard bare (bareWith bytes) ["assets".toList] [] "bad.svg".toList bytes :=
    ⟨rfl,⟨rfl,by constructor <;> decide,rfl,rfl⟩,by decide +kernel⟩
  have kept : bare.counts true ["assets".toList] ["bad.svg".toList] = true := by decide +kernel
  have path : GainsAsset.path .standard [] "bad.svg".toList = ⟨"./assets/bad.svg"⟩ := by decide +kernel
  have other : ¬SourceTakes .standard bare (["assets".toList] ++ [] ++ ["bad.svg".toList]) := by
    rintro ⟨scan,chosen,root,below,reached,split,_⟩
    have sources : sourceScan .standard = .ok (Scan.sources ⟨"./src"⟩) := rfl
    obtain rfl := Except.ok.inj (sources.symm.trans chosen)
    have src : bare.reach ⟨"./src"⟩ = .ok ["src".toList] := rfl
    obtain rfl := Except.ok.inj (src.symm.trans reached)
    exact absurd (List.cons.inj split).1 (by decide)
  have binary : Text.ofUtf8? [0xFF] = none := by decide +kernel
  have text : Text.ofUtf8? (Text.utf8 "<svg>") = some "<svg>" := Text.ofUtf8?_utf8 _
  have fails : AssetFile.load ⟨⟨"./assets/bad.svg"⟩,"<svg>"⟩ =
      .error (.malformed ⟨"./assets/bad.svg"⟩ 0 "unclosed element at end of input") := by decide +kernel
  obtain ⟨_,_,ends,_⟩ := generate_adding_asset formed rfl generated (more [0xFF])
  obtain ⟨_,_,_,faulty⟩ := generate_adding_asset formed rfl generated (more (Text.utf8 "<svg>"))
  rw [path] at ends faulty
  obtain ⟨g',ran,skips,same⟩ := faulty _ _ kept text fails
  exact ⟨_,generated,ends kept binary,g',_,ran,skips,(same other).2⟩

end Project
end InlineIcons
