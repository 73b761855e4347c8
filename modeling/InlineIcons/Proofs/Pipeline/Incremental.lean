import InlineIcons.Proofs.Pipeline.Run

/-! Reuse cannot be seen in what a run shows: after any runs, a pipeline shows what a new one shows. The
invariant says of each table what its values were computed from, and that this was hashed. -/
namespace InlineIcons

/-- No two of these byte strings have one hash. -/
def CollisionFree (hashed : List (List UInt8)) : Prop :=
  ∀ a ∈ hashed, ∀ b ∈ hashed, Digest.blake3 a = Digest.blake3 b → a = b

theorem CollisionFree.anti {hashed hashed' : List (List UInt8)} (free : CollisionFree hashed)
    (inside : ∀ b ∈ hashed', b ∈ hashed) : CollisionFree hashed' :=
  fun a member b member' => free a (inside a member) b (inside b member')

/-- The first bytes of the hashes may be enough to tell them apart. -/
theorem CollisionFree.of_firsts {hashed : List (List UInt8)}
    (distinct : (hashed.map fun b => (Digest.blake3 b).head?).Nodup) : CollisionFree hashed :=
  fun _ member _ member' same => List.inj_on_of_nodup_map distinct member member' (congrArg List.head? same)

instance (hashed : List (List UInt8)) : Decidable (CollisionFree hashed) :=
  inferInstanceAs (Decidable (∀ a ∈ hashed, ∀ b ∈ hashed, _))

def Inputs.Addressable (inputs : Inputs) : Prop := ∀ f ∈ inputs.assets, f.Addressable

instance (inputs : Inputs) : Decidable inputs.Addressable :=
  inferInstanceAs (Decidable (∀ f ∈ inputs.assets, _))

/-- A file that was hashed and whose path has a length of 64 bits. -/
def AssetFile.Known (hashed : List (List UInt8)) (f : AssetFile) : Prop :=
  f.Addressable ∧ f.hashed ∈ hashed

theorem CollisionFree.ofBytes_inj {hashed : List (List UInt8)} (free : CollisionFree hashed)
    {a b : List UInt8} (inside : a ∈ hashed) (inside' : b ∈ hashed)
    (same : Fingerprint.ofBytes a = .ofBytes b) : a = b :=
  free a inside b inside' (congrArg Fingerprint.bytes same)

/-- Where hashes do not collide, neither do the fingerprints of files. -/
theorem CollisionFree.files_apart {hashed : List (List UInt8)} (free : CollisionFree hashed)
    {f g : AssetFile} (known : f.Known hashed) (known' : g.Known hashed)
    (same : f.fingerprint = g.fingerprint) : f = g :=
  AssetFile.hashed_injective known.1 known'.1 (free.ofBytes_inj known.2 known'.2 same)

/-- Where hashes do not collide, a fingerprint stands for a file, also where there may be none. -/
theorem CollisionFree.map_fingerprint_inj {hashed : List (List UInt8)} (free : CollisionFree hashed)
    {f g : Option AssetFile} (known : ∀ a ∈ f, a.Known hashed) (known' : ∀ b ∈ g, b.Known hashed) :
    f.map AssetFile.fingerprint = g.map AssetFile.fingerprint ↔ f = g := by
  constructor
  · intro same
    cases f with
    | none => exact (Option.map_eq_none_iff.mp same.symm).symm
    | some a =>
      obtain ⟨b,rfl,printed⟩ := Option.map_eq_some_iff.mp same.symm
      rw [free.files_apart (known a rfl) (known' b rfl) printed.symm]
  · exact congrArg _

theorem CollisionFree.ofBytes_eq_iff {hashed : List (List UInt8)} (free : CollisionFree hashed) {a b : List UInt8}
    (inside : a ∈ hashed) (inside' : b ∈ hashed) : Fingerprint.ofBytes a = .ofBytes b ↔ a = b :=
  ⟨free.ofBytes_inj inside inside',congrArg _⟩

namespace Pipeline

variable {hashed : List (List UInt8)} {p : Pipeline} {inputs : Inputs} {c : Collected}

def ResultSound (hashed : List (List UInt8)) (options : PipelineOptions) (print : Fingerprint)
    (value : GenerationResult) : Prop :=
  ∃ (a : Analysis) (c : Collected), c.From (AssetFile.Known hashed) ∧
    a.hashed c options.emit ∈ hashed ∧ print = .ofBytes (a.hashed c options.emit) ∧
    value = a.generate c.index options.emit

/-- What is said of the table of units: which unit stands under a key, and what it was made from. -/
def UnitSound (hashed : List (List UInt8)) (options : PipelineOptions) (key : String)
    (print : Fingerprint) (value : SourceUnit) : Prop :=
  (key = "directive" → value = SourceUnit.directive) ∧
    (key = "catalog" → ∃ (o : CatalogOptions) (c : Collected), options.catalog = some o ∧
      c.From (AssetFile.Known hashed) ∧ c.catalogHashed o ∈ hashed ∧
      print = .ofBytes (c.catalogHashed o) ∧ value = SourceUnit.catalog c.index o)

/-- Every value of a table was computed, from something that was hashed and has the fingerprint beside
it. -/
structure Sound (hashed : List (List UInt8)) (p : Pipeline) : Prop where
  assets : p.assets.All fun _ print value =>
    ∃ f : AssetFile, f.Known hashed ∧ print = f.fingerprint ∧ value = f.load
  analyses : p.analyses.All fun _ print value =>
    ∃ d : Declaration, d.hashed ∈ hashed ∧ print = d.fingerprint ∧ value = d.analyze
  results : p.results.All fun _ => ResultSound hashed p.options
  units : p.units.All (UnitSound hashed p.options)

theorem new_sound (options : PipelineOptions) : (new options).Sound hashed :=
  ⟨Memo.all_empty,Memo.all_empty,Memo.all_empty,Memo.all_empty⟩

@[simp] theorem options_new (options : PipelineOptions) : (new options).options = options := rfl

theorem loaded_new (options : PipelineOptions) (inputs : Inputs) :
    (new options).loaded inputs =
      (AssetFile.select options.assetExtension inputs.assets).map fun f => (f,f.load) := by
  simp only [loaded,new,fileItems,files,Memo.outputs_empty,List.map_map]
  exact List.map_prod_left_eq_zip.symm

/-! What a run hashes is covered by the bytes that hashes are known to tell apart. -/

section Covered

variable (free : CollisionFree hashed) (sound : p.Sound hashed) (fits : inputs.Addressable)
  (covers : ∀ b ∈ p.hashed inputs, b ∈ hashed)

include fits covers in
theorem known_of_mem_files {f : AssetFile} (member : f ∈ p.files inputs) : f.Known hashed :=
  ⟨fits f (AssetFile.mem_of_mem_select member),
    covers _ (List.mem_append_left _ (List.mem_map_of_mem member))⟩

include covers in
theorem covered_of_ok (done : p.collected inputs = .ok c) :
    (∀ d ∈ Declaration.select inputs.declarations, d.hashed ∈ hashed) ∧
      (∀ a ∈ p.analyzed inputs, a.hashed c p.options.emit ∈ hashed) ∧
      ∀ o, p.options.catalog = some o → c.catalogHashed o ∈ hashed := by
  simp only [Pipeline.hashed,done] at covers
  refine ⟨fun d member => covers _ ?_,fun a member => covers _ ?_,fun o chosen => covers _ ?_⟩
  · simp [List.mem_map_of_mem (f := Declaration.hashed) member]
  · simp [List.mem_map_of_mem (f := (·.hashed c p.options.emit)) member]
  · simp [chosen]

include free sound in
/-- The icons that a run reads, or takes over, are what their files give. -/
theorem loaded_of_known (known : ∀ f ∈ p.files inputs, f.Known hashed) :
    p.loaded inputs = (p.files inputs).map fun f => (f,f.load) := by
  have computed := Memo.outputs_eq_map sound.assets AssetFile.load (p.fileItems inputs) (by
    intro i member v held
    obtain ⟨f,inside,rfl⟩ := List.mem_map.mp member
    obtain ⟨g,member,printed,rfl⟩ := held
    rw [free.files_apart member (known f inside) printed.symm]
    rfl)
  rw [loaded,computed,fileItems,List.map_map]
  exact List.map_prod_left_eq_zip.symm

include free sound fits covers in
theorem loaded_eq : p.loaded inputs = (p.files inputs).map fun f => (f,f.load) :=
  loaded_of_known free sound fun _ member => known_of_mem_files fits covers member

include free sound fits covers in
theorem collected_from (done : p.collected inputs = .ok c) : c.From (AssetFile.Known hashed) := by
  rw [collected,loaded_eq free sound fits covers] at done
  exact Collected.addAll_from Collected.empty_from
    (fun f member => known_of_mem_files fits covers member) done

include free sound in
theorem analyzed_of_declared (declared : ∀ d ∈ Declaration.select inputs.declarations, d.hashed ∈ hashed) :
    p.analyzed inputs = (Declaration.select inputs.declarations).map Declaration.analyze := by
  have computed := Memo.outputs_eq_map sound.analyses Declaration.analyze (declarationItems inputs) (by
    intro i member v known
    obtain ⟨d,inside,rfl⟩ := List.mem_map.mp member
    obtain ⟨e,member,printed,rfl⟩ := known
    have bytes := free.ofBytes_inj (declared d inside) member printed
    rw [Declaration.hashed_injective bytes]
    rfl)
  rw [analyzed,computed,declarationItems,List.map_map]
  rfl

include free sound covers in
theorem analyzed_eq (done : p.collected inputs = .ok c) :
    p.analyzed inputs = (Declaration.select inputs.declarations).map Declaration.analyze :=
  analyzed_of_declared free sound (covered_of_ok covers done).1

include free sound fits covers in
theorem generated_eq (done : p.collected inputs = .ok c) :
    p.generated inputs c = (p.analyzed inputs).map (·.generate c.index p.options.emit) := by
  have icons := collected_from free sound fits covers done
  have computed := Memo.outputs_eq_map sound.results (·.generate c.index p.options.emit)
    (p.resultItems inputs c) (by
      intro i member v known
      obtain ⟨a,inside,rfl⟩ := List.mem_map.mp member
      obtain ⟨b,c',icons',member,printed,rfl⟩ := known
      have bytes := free.ofBytes_inj ((covered_of_ok covers done).2.1 a inside) member printed
      obtain ⟨rfl,prints⟩ := Analysis.hashed_inj icons icons' bytes
      exact (Analysis.generate_congr fun m member => Collected.get?_eq_of_fingerprint? icons icons'
        (fun f g known known' => free.files_apart known known') (prints m member)).symm)
  rw [generated,computed,resultItems,List.map_map]
  rfl

theorem directive_sound (hashed : List (List UInt8)) (options : PipelineOptions) (print : Fingerprint) :
    UnitSound hashed options "directive" print SourceUnit.directive :=
  ⟨fun _ => rfl,fun key => absurd key (by decide)⟩

include free sound fits covers in
theorem catalog_sound (done : p.collected inputs = .ok c) {o : CatalogOptions}
    (chosen : p.options.catalog = some o) :
    UnitSound hashed p.options "catalog" (.ofBytes (c.catalogHashed o)) (SourceUnit.catalog c.index o) := by
  refine ⟨fun key => absurd key (by decide),fun _ => ⟨o,c,chosen,?_,?_,rfl,rfl⟩⟩
  · exact collected_from free sound fits covers done
  · exact (covered_of_ok covers done).2.2 o chosen

include sound in
theorem directiveEntry_eq : p.directiveEntry.1 = SourceUnit.directive :=
  (Memo.getOrCompute_holds sound.units .zero (directive_sound ..)).1 rfl

include sound in
theorem directiveEntry_all : p.directiveEntry.2.1.All (UnitSound hashed p.options) :=
  Memo.getOrCompute_all sound.units .zero (directive_sound ..)

include free sound fits covers in
theorem catalogEntry_eq (done : p.collected inputs = .ok c) {o : CatalogOptions}
    (chosen : p.options.catalog = some o) : (p.catalogEntry c o).1 = SourceUnit.catalog c.index o := by
  have table := directiveEntry_all sound
  have known : UnitSound hashed p.options "catalog" (.ofBytes (c.catalogHashed o)) (p.catalogEntry c o).1 :=
    Memo.getOrCompute_holds table .zero (catalog_sound free sound fits covers done chosen)
  obtain ⟨o',c',chosen',icons',member,printed,valued⟩ := known.2 rfl
  obtain rfl : o = o' := Option.some.inj (chosen.symm.trans chosen')
  have bytes := free.ofBytes_inj ((covered_of_ok covers done).2.2 o chosen) member printed
  have icons := collected_from free sound fits covers done
  rw [Collected.index_eq_of_catalogHashed icons icons'
    (fun f g known known' => free.files_apart known known') bytes]
  exact valued

include free sound fits covers in
theorem fixedUnits_eq (done : p.collected inputs = .ok c) :
    (p.fixedUnits c).1 =
      SourceUnit.directive :: (p.options.catalog.map fun o => SourceUnit.catalog c.index o).toList := by
  rw [fixedUnits_fst,directiveEntry_eq sound]
  cases chosen : p.options.catalog with
  | none => rfl
  | some o => simp [catalogEntry_eq free sound fits covers done chosen]

include free sound fits covers in
theorem collected_eq : p.collected inputs = (new p.options).collected inputs := by
  rw [collected,collected,loaded_eq free sound fits covers,loaded_new]
  rfl

include free sound fits covers in
theorem outcome_eq (done : p.collected inputs = .ok c) :
    p.outcome inputs c = (new p.options).outcome inputs c := by
  have units : (p.fixedUnits c).1 = ((new p.options).fixedUnits c).1 := by
    rw [fixedUnits_eq free sound fits covers done,fixedUnits_fst]
    rfl
  have results : p.generated inputs c = (new p.options).generated inputs c := by
    rw [generated_eq free sound fits covers done,analyzed_eq free sound covers done]
    simp only [generated,new,Memo.outputs_empty,resultItems,analyzed,declarationItems,List.map_map]
    rfl
  have named : p.named inputs c = (new p.options).named inputs c :=
    congrArg (HintNames.assign p.options.catalog) results
  rw [outcome,outcome,named,units]

include free sound fits covers in
/-- One run on sound tables shows what it shows on empty ones. -/
theorem run_eq_new :
    (p.run inputs).1.map RunReport.outcome = ((new p.options).run inputs).1.map RunReport.outcome := by
  have same := collected_eq free sound fits covers
  cases done : p.collected inputs with
  | error e => rw [run_of_error done,run_of_error (same.symm.trans done)]
  | ok c =>
    rw [run_of_ok done,run_of_ok (same.symm.trans done)]
    exact congrArg Except.ok (outcome_eq free sound fits covers done)

include sound fits covers in
theorem assetsAfter_all : (p.assetsAfter inputs).All fun _ print value =>
    ∃ f : AssetFile, f.Known hashed ∧ print = f.fingerprint ∧ value = f.load := by
  refine Memo.stage_all sound.assets _ _ fun i member => ?_
  obtain ⟨f,inside,rfl⟩ := List.mem_map.mp member
  exact ⟨f,known_of_mem_files fits covers inside,rfl,rfl⟩

include free sound fits covers in
theorem after_sound (done : p.collected inputs = .ok c) : (p.after inputs c).Sound hashed := by
  have icons := collected_from free sound fits covers done
  obtain ⟨declarations,analyses,_⟩ := covered_of_ok covers done
  refine ⟨assetsAfter_all sound fits covers,?_,?_,?_⟩
  · refine Memo.stage_all sound.analyses _ _ fun i member => ?_
    obtain ⟨d,inside,rfl⟩ := List.mem_map.mp member
    exact ⟨d,declarations d inside,rfl,rfl⟩
  · refine Memo.stage_all sound.results (·.generate c.index p.options.emit) (p.resultItems inputs c)
      fun i member => ?_
    obtain ⟨a,inside,rfl⟩ := List.mem_map.mp member
    exact ⟨a,c,icons,analyses a inside,rfl,rfl⟩
  · simp only [after,fixedUnits_snd]
    cases chosen : p.options.catalog with
    | none => exact directiveEntry_all sound
    | some o =>
      exact Memo.getOrCompute_all (directiveEntry_all sound) .zero
        (catalog_sound free sound fits covers done chosen)

include free sound fits covers in
/-- A run keeps the tables sound, also one that fails halfway. -/
theorem run_sound : (p.run inputs).2.Sound hashed := by
  cases done : p.collected inputs with
  | error e =>
    rw [run_of_error done]
    exact ⟨assetsAfter_all sound fits covers,sound.analyses,sound.results,sound.units⟩
  | ok c =>
    rw [run_of_ok done]
    exact after_sound free sound fits covers done

end Covered

theorem runAll_sound {history : List Inputs} (free : CollisionFree hashed) (sound : p.Sound hashed)
    (fits : ∀ inputs ∈ history, inputs.Addressable) (covers : ∀ b ∈ p.hashedAll history, b ∈ hashed) :
    (p.runAll history).Sound hashed := by
  induction history generalizing p with
  | nil => exact sound
  | cons inputs history ih =>
    have here : ∀ b ∈ p.hashed inputs, b ∈ hashed := fun b member => covers b (List.mem_append_left _ member)
    have next := run_sound free sound (fits inputs List.mem_cons_self) here
    exact ih next (fun i member => fits i (List.mem_cons_of_mem inputs member))
      fun b member => covers b (List.mem_append_right _ member)

section Fresh

variable (free : CollisionFree hashed) (sound : p.Sound hashed)

include free sound in
/-- Sound tables do not change what a run hashes. -/
theorem hashed_eq_new (fits : inputs.Addressable) (covers : ∀ b ∈ (new p.options).hashed inputs, b ∈ hashed) :
    p.hashed inputs = (new p.options).hashed inputs := by
  have known : ∀ f ∈ p.files inputs, f.Known hashed :=
    fun _ member => known_of_mem_files (p := new p.options) fits covers member
  have same : p.collected inputs = (new p.options).collected inputs := by
    rw [collected,collected,loaded_of_known free sound known,loaded_new]
    rfl
  rw [Pipeline.hashed,Pipeline.hashed,same]
  cases done : (new p.options).collected inputs with
  | error e => rfl
  | ok c =>
    have declared := (covered_of_ok covers done).1
    have analyzed : p.analyzed inputs = (new p.options).analyzed inputs := by
      rw [analyzed_of_declared free sound declared,analyzed_of_declared free (new_sound p.options) declared]
    simp only [analyzed]
    rfl

include free sound in
/-- So runs hash, one after another, what new pipelines would. -/
theorem hashedAll_eq_new {history : List Inputs} (fits : ∀ inputs ∈ history, inputs.Addressable)
    (covers : ∀ inputs ∈ history, ∀ b ∈ (new p.options).hashed inputs, b ∈ hashed) :
    p.hashedAll history = history.flatMap (new p.options).hashed := by
  induction history generalizing p with
  | nil => rfl
  | cons inputs history ih =>
    obtain ⟨here,later⟩ := List.forall_mem_cons.mp covers
    obtain ⟨fits,fitsLater⟩ := List.forall_mem_cons.mp fits
    have same := hashed_eq_new free sound fits here
    have next := run_sound free sound fits (same.symm ▸ here)
    have options := options_run p inputs
    rw [hashedAll,ih next fitsLater (by rwa [options]),same,options,List.flatMap_cons]

end Fresh

section History

variable {options : PipelineOptions} {history : List Inputs} {last : Inputs} (free : CollisionFree hashed)
  (fits : ∀ inputs ∈ history ++ [last], inputs.Addressable)
  (covers : ∀ b ∈ (new options).hashedAll (history ++ [last]), b ∈ hashed)

include covers in
theorem covers_history : ∀ b ∈ (new options).hashedAll history, b ∈ hashed := by
  rw [hashedAll_append] at covers
  exact fun b member => covers b (List.mem_append_left _ member)

include covers in
theorem covers_last : ∀ b ∈ ((new options).runAll history).hashed last, b ∈ hashed := by
  rw [hashedAll_append] at covers
  exact fun b member => covers b (List.mem_append_right _ (List.mem_append_left _ member))

include fits in
theorem fits_history : ∀ inputs ∈ history, inputs.Addressable :=
  fun inputs member => fits inputs (List.mem_append_left _ member)

include fits in
theorem fits_last : last.Addressable := fits last (List.mem_append_right _ List.mem_cons_self)

include free fits covers in
theorem sound_runAll : ((new options).runAll history).Sound hashed :=
  runAll_sound free (new_sound options) (fits_history fits) (covers_history covers)

include free fits covers in
theorem collected_runAll : ((new options).runAll history).collected last = (new options).collected last := by
  have same := collected_eq free (sound_runAll free fits covers) (fits_last fits) (covers_last covers)
  rwa [options_runAll] at same

include free fits covers in
theorem outcome_runAll (done : ((new options).runAll history).collected last = .ok c) :
    ((new options).runAll history).outcome last c = (new options).outcome last c := by
  have same := outcome_eq free (sound_runAll free fits covers) (fits_last fits) (covers_last covers) done
  rwa [options_runAll] at same

end History

/-- Incremental generation equals generation from scratch: whatever ran before, also runs that failed,
the last run ends as it does on a new pipeline, in the same error or with the same results, units and
diagnostics. -/
theorem run_after_history {options : PipelineOptions} {history : List Inputs} {last : Inputs}
    (free : CollisionFree ((new options).hashedAll (history ++ [last])))
    (fits : ∀ inputs ∈ history ++ [last], inputs.Addressable) :
    (((new options).runAll history).run last).1.map RunReport.outcome =
      ((new options).run last).1.map RunReport.outcome := by
  rw [hashedAll_append] at free
  have before : ((new options).runAll history).Sound _ :=
    runAll_sound free (new_sound options) (fun i member => fits i (List.mem_append_left _ member))
      fun b member => List.mem_append_left _ member
  have ran := run_eq_new free before (fits last (List.mem_append_right _ List.mem_cons_self))
    fun b member => List.mem_append_right _ (List.mem_append_left _ member)
  rwa [options_runAll] at ran

/-- An icon that goes and comes back with other content, beside a new one. -/
def sampleHistory : List Inputs := [⟨[⟨⟨"home.svg"⟩,"<svg></svg>"⟩],[]⟩,⟨[],[]⟩]

def sampleLast : Inputs := ⟨[⟨⟨"user.svg"⟩,"<svg></svg>"⟩,⟨⟨"home.svg"⟩,"<svg><g/></svg>"⟩],[]⟩

theorem run_after_sampleHistory :
    CollisionFree ((new .standard).hashedAll (sampleHistory ++ [sampleLast])) ∧
      (∀ inputs ∈ sampleHistory ++ [sampleLast], inputs.Addressable) ∧
      (((new .standard).runAll sampleHistory).run sampleLast).1.map RunReport.outcome =
        ((new .standard).run sampleLast).1.map RunReport.outcome := by
  have free : CollisionFree ((new .standard).hashedAll (sampleHistory ++ [sampleLast])) := by
    refine CollisionFree.anti ?_ fun b member => mem_of_mem_hashedAll rfl rfl (by decide) member
    decide +kernel
  have fits : ∀ inputs ∈ sampleHistory ++ [sampleLast], inputs.Addressable := by decide +kernel
  exact ⟨free,fits,run_after_history free fits⟩

end Pipeline
end InlineIcons
