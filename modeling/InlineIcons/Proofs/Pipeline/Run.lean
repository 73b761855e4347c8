import InlineIcons.Proofs.Memo
import InlineIcons.Proofs.Pipeline.Hashed

/-! A run stage by stage: what each stage gives on the tables of a pipeline, what it hashes, and how the
run is put together from the stages. -/
namespace InlineIcons

/-- What a run shows, its counters aside. -/
structure Outcome where
  results : List GenerationResult
  units : List SourceUnit
  diagnostics : List Diagnostic
  deriving DecidableEq, Repr

def RunReport.outcome (r : RunReport) : Outcome := ⟨r.results,r.units,r.diagnostics⟩

theorem mem_of_mem_dropRepeats {α : Type} {same : α → α → Bool} {as : List α} {a : α}
    (member : a ∈ dropRepeats same as) : a ∈ as := by
  induction as using dropRepeats.induct same with
  | case1 => simp [dropRepeats] at member
  | case2 b => simpa [dropRepeats] using member
  | case3 b c rest agrees ih =>
    simp only [dropRepeats,agrees,if_true] at member
    have := ih member
    grind
  | case4 b c rest differs ih =>
    simp only [dropRepeats,differs,if_neg,Bool.false_eq_true,not_false_eq_true,List.mem_cons] at member
    grind

theorem AssetFile.mem_of_mem_select {extension : String} {files : List AssetFile} {f : AssetFile}
    (member : f ∈ select extension files) : f ∈ files :=
  (List.mem_filter.mp (List.mem_mergeSort.mp (mem_of_mem_dropRepeats member))).1

namespace Pipeline

def files (p : Pipeline) (inputs : Inputs) : List AssetFile :=
  AssetFile.select p.options.assetExtension inputs.assets

def fileItems (p : Pipeline) (inputs : Inputs) : List (Memo.Item (List Path.Component) AssetFile) :=
  (p.files inputs).map AssetFile.item

def loaded (p : Pipeline) (inputs : Inputs) : List (AssetFile × Except AssetError Asset) :=
  (p.files inputs).zip (p.assets.outputs AssetFile.load (p.fileItems inputs))

def collected (p : Pipeline) (inputs : Inputs) : Except AssetError Collected :=
  Collected.empty.addAll p.options.strictAssets (p.loaded inputs)

def declarationItems (inputs : Inputs) : List (Memo.Item DefinitionId Declaration) :=
  (Declaration.select inputs.declarations).map Declaration.item

def analyzed (p : Pipeline) (inputs : Inputs) : List Analysis :=
  p.analyses.outputs Declaration.analyze (declarationItems inputs)

def resultItems (p : Pipeline) (inputs : Inputs) (c : Collected) : List (Memo.Item DefinitionId Analysis) :=
  (p.analyzed inputs).map (·.resultItem c p.options.emit)

def generated (p : Pipeline) (inputs : Inputs) (c : Collected) : List GenerationResult :=
  p.results.outputs (·.generate c.index p.options.emit) (p.resultItems inputs c)

def named (p : Pipeline) (inputs : Inputs) (c : Collected) : List GenerationResult :=
  HintNames.assign p.options.catalog (p.generated inputs c)

def outcome (p : Pipeline) (inputs : Inputs) (c : Collected) : Outcome where
  results := p.named inputs c
  units := assemble (p.fixedUnits c).1 (p.named inputs c)
  diagnostics := c.diagnostics ++ (p.named inputs c).flatMap GenerationResult.diagnostics

def assetsAfter (p : Pipeline) (inputs : Inputs) : Memo (List Path.Component) (Except AssetError Asset) :=
  (p.assets.stage AssetFile.load (p.fileItems inputs)).2.1

def after (p : Pipeline) (inputs : Inputs) (c : Collected) : Pipeline where
  options := p.options
  assets := p.assetsAfter inputs
  analyses := (p.analyses.stage Declaration.analyze (declarationItems inputs)).2.1
  results := (p.results.stage (·.generate c.index p.options.emit) (p.resultItems inputs c)).2.1
  units := (p.fixedUnits c).2

def directiveEntry (p : Pipeline) : SourceUnit × Memo String SourceUnit × MemoStats :=
  p.units.getOrCompute .zero "directive" (.ofBytes (Text.utf8 "directive")) fun _ => SourceUnit.directive

def catalogEntry (p : Pipeline) (c : Collected) (o : CatalogOptions) :
    SourceUnit × Memo String SourceUnit × MemoStats :=
  p.directiveEntry.2.1.getOrCompute .zero "catalog" (.ofBytes (c.catalogHashed o))
    fun _ => SourceUnit.catalog c.index o

theorem fixedUnits_fst (p : Pipeline) (c : Collected) :
    (p.fixedUnits c).1 =
      p.directiveEntry.1 :: (p.options.catalog.map fun o => (p.catalogEntry c o).1).toList := by
  unfold fixedUnits
  cases p.options.catalog <;> rfl

theorem fixedUnits_snd (p : Pipeline) (c : Collected) :
    (p.fixedUnits c).2 = match p.options.catalog with
      | none => p.directiveEntry.2.1
      | some o => (p.catalogEntry c o).2.1 := by
  unfold fixedUnits
  cases p.options.catalog <;> rfl

def report (p : Pipeline) (inputs : Inputs) (c : Collected) : RunReport where
  results := p.named inputs c
  units := assemble (p.fixedUnits c).1 (p.named inputs c)
  diagnostics := c.diagnostics ++ (p.named inputs c).flatMap GenerationResult.diagnostics
  stats := ⟨(p.assets.stage AssetFile.load (p.fileItems inputs)).2.2,
    (p.analyses.stage Declaration.analyze (declarationItems inputs)).2.2,
    (p.results.stage (·.generate c.index p.options.emit) (p.resultItems inputs c)).2.2⟩

theorem run_eq (p : Pipeline) (inputs : Inputs) :
    p.run inputs = match p.collected inputs with
      | .error e => (.error e,{ p with assets := p.assetsAfter inputs })
      | .ok c => (.ok (p.report inputs c),p.after inputs c) := by
  rfl

theorem run_of_error {p : Pipeline} {inputs : Inputs} {e : AssetError} (fails : p.collected inputs = .error e) :
    p.run inputs = (.error e,{ p with assets := p.assetsAfter inputs }) := by
  rw [run_eq,fails]

theorem run_of_ok {p : Pipeline} {inputs : Inputs} {c : Collected} (done : p.collected inputs = .ok c) :
    p.run inputs = (.ok (p.report inputs c),p.after inputs c) := by
  rw [run_eq,done]

/-- The files' reports come first, then those of the results. -/
theorem diagnostics_report (p : Pipeline) (inputs : Inputs) (c : Collected) : (p.report inputs c).diagnostics =
    c.diagnostics ++ (p.named inputs c).flatMap GenerationResult.diagnostics := rfl

/-- What a run hashes: files, declarations and results, the latter two unless a file ends the run, and
the fixed units. -/
def hashed (p : Pipeline) (inputs : Inputs) : List (List UInt8) :=
  (p.files inputs).map AssetFile.hashed ++
    match p.collected inputs with
    | .error _ => []
    | .ok c =>
      (Declaration.select inputs.declarations).map Declaration.hashed ++
        (p.analyzed inputs).map (·.hashed c p.options.emit) ++
        Text.utf8 "directive" :: (p.options.catalog.map c.catalogHashed).toList

def runAll (p : Pipeline) (history : List Inputs) : Pipeline :=
  history.foldl (fun p inputs => (p.run inputs).2) p

def hashedAll (p : Pipeline) : List Inputs → List (List UInt8)
  | [] => []
  | inputs :: history => p.hashed inputs ++ (p.run inputs).2.hashedAll history

@[simp] theorem options_run (p : Pipeline) (inputs : Inputs) : (p.run inputs).2.options = p.options := by
  rw [run_eq]
  cases p.collected inputs <;> rfl

@[simp] theorem options_runAll (p : Pipeline) (history : List Inputs) :
    (p.runAll history).options = p.options := by
  induction history generalizing p with
  | nil => rfl
  | cons inputs history ih => exact (ih (p.run inputs).2).trans (options_run p inputs)

theorem hashedAll_append (p : Pipeline) (history later : List Inputs) :
    p.hashedAll (history ++ later) = p.hashedAll history ++ (p.runAll history).hashedAll later := by
  induction history generalizing p with
  | nil => rfl
  | cons inputs history ih =>
    rw [List.cons_append,hashedAll,hashedAll,ih,List.append_assoc]
    rfl

/-- Where files are skipped and nothing is declared, runs hash files and the key of the fixed unit. -/
theorem mem_of_mem_hashedAll {p : Pipeline} {history : List Inputs}
    (lenient : p.options.strictAssets = false) (plain : p.options.catalog = none)
    (bare : ∀ inputs ∈ history, inputs.declarations = []) {b : List UInt8} (member : b ∈ p.hashedAll history) :
    b ∈ Text.utf8 "directive" :: (history.flatMap Inputs.assets).map AssetFile.hashed := by
  induction history generalizing p with
  | nil => simp [hashedAll] at member
  | cons inputs history ih =>
    rcases List.mem_append.mp member with member | member
    · obtain ⟨c,done⟩ := Collected.empty.addAll_lenient (p.loaded inputs)
      have done : p.collected inputs = .ok c := by rw [collected,lenient,done]
      have analyzed : p.analyzed inputs = [] := by
        simp [analyzed,declarationItems,bare inputs List.mem_cons_self,Declaration.select,dropRepeats,
          Memo.outputs]
      simp only [hashed,done,analyzed,plain,bare inputs List.mem_cons_self] at member
      rcases List.mem_append.mp member with member | member
      · obtain ⟨f,inside,rfl⟩ := List.mem_map.mp member
        have inside := AssetFile.mem_of_mem_select inside
        simp only [List.flatMap_cons,List.map_append,List.mem_cons,List.mem_append]
        exact .inr (.inl (List.mem_map_of_mem inside))
      · have keyed : b = Text.utf8 "directive" := by
          simpa [Declaration.select,dropRepeats] using member
        exact keyed ▸ List.mem_cons_self
    · have later := ih (by rw [options_run,lenient]) (by rw [options_run,plain])
        (fun i member => bare i (List.mem_cons_of_mem inputs member)) member
      rcases List.mem_cons.mp later with rfl | later
      · exact List.mem_cons_self
      · simp only [List.flatMap_cons,List.map_append,List.mem_cons,List.mem_append]
        exact .inr (.inr later)

end Pipeline
end InlineIcons
