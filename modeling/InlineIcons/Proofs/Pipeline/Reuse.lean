import InlineIcons.Proofs.Memo.Print
import InlineIcons.Proofs.Pipeline.Skipped
import Mathlib.Data.List.Induction

/-! What a run reuses. The table of files goes back to the run before, the tables of definitions and of results
to the latest run that did not fail; older runs leave nothing, so the counters are a matter of two inputs. -/
namespace InlineIcons

/-- A result's bytes depend on the icons of the members alone. -/
theorem Analysis.hashed_congr {a : Analysis} {c c' : Collected} {emit : EmitOptions}
    (same : ∀ m ∈ a.members, c.fingerprint? m = c'.fingerprint? m) : a.hashed c emit = a.hashed c' emit := by
  have parts : (a.members.flatMap fun m => [Fingerprint.Part.text m,c.mark m]) =
      a.members.flatMap fun m => [.text m,c'.mark m] := by
    refine List.flatMap_congr fun m member => ?_
    rw [Collected.mark,Collected.mark,same m member]
  rw [hashed,hashed,resultParts_eq,resultParts_eq,parts]

/-- Whether a result of one run would be made again in another: the check has the same outcome, and for each
member the same file provides the icon, or none does. -/
def PipelineOptions.keepsResult (o : PipelineOptions) (before last : Inputs) (d : Declaration) : Bool :=
  (Declaration.select before.declarations).any (fun e => e.analyze = d.analyze) && d.analyze.members.all fun m =>
    AssetFile.winner? o.assetExtension before.assets m = AssetFile.winner? o.assetExtension last.assets m

/-- Whether a definition has the identifier of a path among its members. -/
def Declaration.mentions (d : Declaration) (path : Path) : Bool :=
  match Stem.toIdentifier (path.fileStem?.getD "") with
  | .ok identifier => d.analyze.members.contains identifier
  | .error _ => false

theorem Declaration.mentions_iff (d : Declaration) (path : Path) : d.mentions path ↔
    ∃ m, Stem.toIdentifier (path.fileStem?.getD "") = .ok m ∧ m ∈ d.analyze.members := by
  unfold mentions
  cases Stem.toIdentifier (path.fileStem?.getD "") <;> simp

/-- Inputs that differ in the files at one path alone. -/
structure Inputs.DifferAt (path : Path) (before last : Inputs) : Prop where
  declarations : before.declarations = last.declarations
  assets : before.assets.filter (·.path.components ≠ path.components) =
    last.assets.filter (·.path.components ≠ path.components)

theorem Path.fileStem?_congr {p q : Path} (same : p.components = q.components) : p.fileStem? = q.fileStem? := by
  rw [fileStem?,fileStem?,fileName?,fileName?,same]

section DifferAt

variable {path : Path} {before last : Inputs}

/-- Files at one path can only be exchanged for the identifier of that path. -/
theorem AssetFile.winner?_eq_of_differAt (differ : before.DifferAt path last) {identifier : String}
    (other : Stem.toIdentifier (path.fileStem?.getD "") ≠ .ok identifier) (extension : String) :
    winner? extension before.assets identifier = winner? extension last.assets identifier := by
  -- No file at the changed path provides this identifier, so the search may leave them out.
  have elsewhere : ∀ files, winner? extension files identifier =
      ((select extension files).filter (·.path.components ≠ path.components)).find? (provides identifier) := by
    intro files
    rw [List.find?_filter,winner?]
    refine congrArg ((select extension files).find? ·) (funext fun f => ?_)
    by_cases provided : f.provides identifier
    · have apart : f.path.components ≠ path.components := fun same =>
        other (Path.fileStem?_congr same ▸ toIdentifier_of_provides provided)
      simp [provided,apart]
    · simp [provided]
  have keyed : ∀ f g : AssetFile, f.path.components = g.path.components →
      decide (f.path.components ≠ path.components) = decide (g.path.components ≠ path.components) :=
    fun f g same => by rw [same]
  rw [elsewhere,elsewhere,← select_filter keyed,← select_filter keyed,differ.assets]

/-- A result that is not kept is one of a definition that asks for the icon of the changed file. -/
theorem Declaration.mentions_of_not_keepsResult (differ : before.DifferAt path last) (o : PipelineOptions) :
    ∀ d ∈ select last.declarations, o.keepsResult before last d = false → d.mentions path := by
  intro d member changed
  by_contra silent
  have checked : (select before.declarations).any (fun e => e.analyze = d.analyze) :=
    List.any_eq_true.mpr ⟨d,differ.declarations ▸ member,by simp⟩
  have won : d.analyze.members.all fun m => AssetFile.winner? o.assetExtension before.assets m =
      AssetFile.winner? o.assetExtension last.assets m := by
    refine List.all_eq_true.mpr fun m inside => decide_eq_true ?_
    refine AssetFile.winner?_eq_of_differAt differ (fun named => silent ?_) o.assetExtension
    exact (d.mentions_iff path).mpr ⟨m,named,inside⟩
  simp [PipelineOptions.keepsResult,checked,won] at changed

end DifferAt

namespace Pipeline

def completed (p : Pipeline) : List Inputs → List Inputs
  | [] => []
  | inputs :: history =>
    match p.run inputs with
    | (.ok _,after) => inputs :: after.completed history
    | (.error _,after) => after.completed history

theorem runAll_append (p : Pipeline) (history : List Inputs) (last : Inputs) :
    p.runAll (history ++ [last]) = ((p.runAll history).run last).2 := by
  simp [runAll]

theorem completed_of_ok {p : Pipeline} {history : List Inputs} {last : Inputs} {c : Collected}
    (done : (p.runAll history).collected last = .ok c) :
    p.completed (history ++ [last]) = p.completed history ++ [last] := by
  induction history generalizing p with
  | nil =>
    have ran := run_of_ok done
    simp only [runAll,List.foldl_nil] at ran
    simp [completed,ran]
  | cons inputs history ih =>
    have rest := ih (p := (p.run inputs).2) done
    rw [List.cons_append,completed,completed]
    split <;> simp_all

theorem completed_of_error {p : Pipeline} {history : List Inputs} {last : Inputs} {e : AssetError}
    (fails : (p.runAll history).collected last = .error e) :
    p.completed (history ++ [last]) = p.completed history := by
  induction history generalizing p with
  | nil =>
    have ran := run_of_error fails
    simp only [runAll,List.foldl_nil] at ran
    simp [completed,ran]
  | cons inputs history ih =>
    have rest := ih (p := (p.run inputs).2) fails
    rw [List.cons_append,completed,completed]
    split <;> simp_all

@[simp] theorem assets_run (p : Pipeline) (inputs : Inputs) : (p.run inputs).2.assets = p.assetsAfter inputs := by
  rw [run_eq]
  cases p.collected inputs <;> rfl

theorem print?_assetsAfter (p : Pipeline) (inputs : Inputs) (key : List Path.Component) (print : Fingerprint) :
    (p.assetsAfter inputs).print? key = some print ↔
      ∃ f ∈ p.files inputs, f.path.components = key ∧ f.fingerprint = print := by
  have distinct : ((p.fileItems inputs).map Memo.Item.key).Nodup := by
    rw [fileItems,List.map_map]
    exact AssetFile.nodup_select ..
  rw [assetsAfter,Memo.print?_stage _ _ distinct]
  simp [fileItems,AssetFile.item]

/-- The counters of a run, by what the tables have for its keys. -/
theorem stats_report (p : Pipeline) (inputs : Inputs) (c : Collected) : (p.report inputs c).stats =
    ⟨.count (p.files inputs) fun f => p.assets.print? f.path.components = some f.fingerprint,
      .count (Declaration.select inputs.declarations) fun d => p.analyses.print? d.id = some d.fingerprint,
      .count (p.analyzed inputs) fun a =>
        p.results.print? a.id = some (.ofBytes (a.hashed c p.options.emit))⟩ := by
  simp only [report,MemoStats.stage_eq,fileItems,declarationItems,resultItems,MemoStats.count_map]
  rfl

/-- What the tables have of definitions and results after a run that did not fail, and what was hashed for it. -/
structure Remembers (hashed : List (List UInt8)) (before : Inputs) (c : Collected) (p : Pipeline) : Prop where
  collected : (new p.options).collected before = .ok c
  icons : c.From (AssetFile.Known hashed)
  files : ∀ f ∈ p.files before, f.Known hashed
  declared : ∀ d ∈ Declaration.select before.declarations, d.hashed ∈ hashed
  generated : ∀ d ∈ Declaration.select before.declarations, d.analyze.hashed c p.options.emit ∈ hashed
  analyses : ∀ id print, p.analyses.print? id = some print ↔
    ∃ d ∈ Declaration.select before.declarations, d.id = id ∧ d.fingerprint = print
  results : ∀ id print, p.results.print? id = some print ↔
    ∃ d ∈ Declaration.select before.declarations, d.id = id ∧ .ofBytes (d.analyze.hashed c p.options.emit) = print

variable {hashed : List (List UInt8)} {p : Pipeline} {inputs before last : Inputs} {c c' : Collected}

/-- A run that does not fail leaves its own definitions and results and no others. -/
theorem after_remembers (free : CollisionFree hashed) (sound : p.Sound hashed) (fits : inputs.Addressable)
    (covers : ∀ b ∈ p.hashed inputs, b ∈ hashed) (done : p.collected inputs = .ok c) :
    Remembers hashed inputs c (p.after inputs c) := by
  have same := collected_eq free sound fits covers
  have analyzed := analyzed_eq free sound covers done
  obtain ⟨declared,generated,_⟩ := covered_of_ok covers done
  have distinct := Declaration.groups.nodup_select inputs.declarations
  refine ⟨same.symm.trans done,collected_from free sound fits covers done,
    fun f member => known_of_mem_files fits covers member,declared,fun d member => ?_,fun id print => ?_,
    fun id print => ?_⟩
  · exact generated _ (analyzed ▸ List.mem_map_of_mem member)
  · have keys : ((declarationItems inputs).map Memo.Item.key).Nodup := by
      rw [declarationItems,List.map_map]
      exact distinct
    simp only [after]
    rw [Memo.print?_stage _ _ keys]
    simp [declarationItems,Declaration.item]
  · have keys : ((p.resultItems inputs c).map Memo.Item.key).Nodup := by
      rw [resultItems,analyzed,List.map_map,List.map_map]
      have named : (Memo.Item.key ∘ (·.resultItem c p.options.emit)) ∘ Declaration.analyze = Declaration.id :=
        funext Declaration.id_analyze
      rw [named]
      exact distinct
    simp only [after]
    rw [Memo.print?_stage _ _ keys]
    simp [resultItems,analyzed,Analysis.resultItem,Declaration.id_analyze]
    rfl

/-- A run that fails leaves the tables of definitions and results as they are. -/
theorem Remembers.run_of_error (remembers : Remembers hashed before c p) {e : AssetError}
    (fails : p.collected inputs = .error e) : Remembers hashed before c (p.run inputs).2 := by
  rw [Pipeline.run_of_error fails]
  exact ⟨remembers.collected,remembers.icons,remembers.files,remembers.declared,remembers.generated,
    remembers.analyses,remembers.results⟩

section History

variable {options : PipelineOptions} {history : List Inputs} (free : CollisionFree hashed)
  (fits : ∀ inputs ∈ history, inputs.Addressable) (covers : ∀ b ∈ (new options).hashedAll history, b ∈ hashed)

include free fits covers in
/-- After any runs the tables hold what the latest run that did not fail has left. -/
theorem remembers_runAll (latest : ((new options).completed history).getLast? = some before) :
    ∃ c, Remembers hashed before c ((new options).runAll history) := by
  -- From the right, since the last run decides whether an earlier one is still the latest that did not fail.
  induction history using List.reverseRecOn with
  | nil => simp [completed] at latest
  | append_singleton history inputs ih =>
    rw [hashedAll_append] at covers
    have fits' : ∀ i ∈ history, i.Addressable := fun i member => fits i (List.mem_append_left _ member)
    have covers' : ∀ b ∈ (new options).hashedAll history, b ∈ hashed :=
      fun b member => covers b (List.mem_append_left _ member)
    rw [runAll_append]
    cases done : ((new options).runAll history).collected inputs with
    | error e =>
      rw [completed_of_error done] at latest
      obtain ⟨c,remembers⟩ := ih fits' covers' latest
      exact ⟨c,remembers.run_of_error done⟩
    | ok c =>
      rw [completed_of_ok done,List.getLast?_concat] at latest
      obtain rfl := Option.some.inj latest
      have sound := runAll_sound free (new_sound options) fits' covers'
      have here : ∀ b ∈ ((new options).runAll history).hashed inputs, b ∈ hashed :=
        fun b member => covers b (List.mem_append_right _ (List.mem_append_left _ member))
      rw [run_of_ok done]
      exact ⟨c,after_remembers free sound (fits inputs (by simp)) here done⟩

end History

theorem empty_of_completed {options : PipelineOptions} {history : List Inputs}
    (none : ((new options).completed history).getLast? = none) :
    ((new options).runAll history).analyses = .empty ∧ ((new options).runAll history).results = .empty := by
  induction history using List.reverseRecOn with
  | nil => exact ⟨rfl,rfl⟩
  | append_singleton history inputs ih =>
    rw [runAll_append]
    cases done : ((new options).runAll history).collected inputs with
    | error e =>
      rw [completed_of_error done] at none
      rw [run_of_error done]
      exact ih none
    | ok c => simp [completed_of_ok done] at none

theorem fingerprint?_collected {options : PipelineOptions} (done : (new options).collected inputs = .ok c)
    (identifier : String) : c.fingerprint? identifier =
      (AssetFile.winner? options.assetExtension inputs.assets identifier).map AssetFile.fingerprint := by
  rw [collected_of_ok done,Collected.fingerprint?_ofFiles (AssetFile.distinct_select ..)]
  rfl

section Counted

variable (free : CollisionFree hashed) (remembers : Remembers hashed before c p) (icons : c'.From (AssetFile.Known hashed))
  (done : (new p.options).collected last = .ok c') (known : ∀ f ∈ p.files last, f.Known hashed)

include free remembers done known in
theorem fingerprint?_eq_iff (identifier : String) : c.fingerprint? identifier = c'.fingerprint? identifier ↔
    AssetFile.winner? p.options.assetExtension before.assets identifier =
      AssetFile.winner? p.options.assetExtension last.assets identifier := by
  rw [fingerprint?_collected remembers.collected,fingerprint?_collected done]
  refine free.map_fingerprint_inj (fun f won => ?_) (fun f won => ?_)
  · exact remembers.files f (List.mem_of_find?_eq_some won)
  · exact known f (List.mem_of_find?_eq_some won)

include free remembers icons done known in
/-- A result's fingerprint is found again just where the result is kept. -/
theorem print?_results_iff {d : Declaration} (covered : d.analyze.hashed c' p.options.emit ∈ hashed) :
    p.results.print? d.id = some (.ofBytes (d.analyze.hashed c' p.options.emit)) ↔
      p.options.keepsResult before last d := by
  have winners := fingerprint?_eq_iff free remembers done known
  rw [remembers.results]
  simp only [PipelineOptions.keepsResult,Bool.and_eq_true,List.any_eq_true,List.all_eq_true,decide_eq_true_eq]
  constructor
  · rintro ⟨e,member,_,printed⟩
    have bytes := free.ofBytes_inj (remembers.generated e member) covered printed
    obtain ⟨same,marks⟩ := Analysis.hashed_inj remembers.icons icons bytes
    exact ⟨⟨e,member,same⟩,fun m inside => (winners m).mp (marks m (same ▸ inside))⟩
  · rintro ⟨⟨e,member,same⟩,won⟩
    have marks : ∀ m ∈ d.analyze.members, c.fingerprint? m = c'.fingerprint? m :=
      fun m inside => (winners m).mpr (won m inside)
    refine ⟨e,member,?_,?_⟩
    · rw [← e.id_analyze,← d.id_analyze,same]
    · rw [same,Analysis.hashed_congr marks]

include free remembers in
theorem print?_analyses_iff {d : Declaration} (covered : d.hashed ∈ hashed) :
    p.analyses.print? d.id = some d.fingerprint ↔ d ∈ Declaration.select before.declarations := by
  rw [remembers.analyses]
  constructor
  · rintro ⟨e,member,_,printed⟩
    have bytes := free.ofBytes_inj (remembers.declared e member) covered printed
    exact Declaration.hashed_injective bytes ▸ member
  · intro member
    exact ⟨d,member,rfl,rfl⟩

end Counted

/-- The counters of a run, by the runs before it. A file is reused if the run before, failed or not, kept it; a
definition if the latest run that did not fail kept the same declaration; a result if that run would give the same
one. The rest is computed, so each path and each identity is counted once. -/
structure Counts (options : PipelineOptions) (history : List Inputs) (last : Inputs) (s : RunStats) : Prop where
  assets : s.assets = .count (AssetFile.select options.assetExtension last.assets) fun f =>
    history.getLast?.any fun before => f ∈ AssetFile.select options.assetExtension before.assets
  definitions : s.definitions = .count (Declaration.select last.declarations) fun d =>
    ((new options).completed history).getLast?.any fun before => d ∈ Declaration.select before.declarations
  results : s.results = .count (Declaration.select last.declarations) fun d =>
    ((new options).completed history).getLast?.any fun before => options.keepsResult before last d
  paths : s.assets.reused + s.assets.computed =
    ((last.assets.filter (·.path.hasExtension options.assetExtension)).map (·.path.components)).dedup.length
  identities : s.definitions.reused + s.definitions.computed = (last.declarations.map Declaration.id).dedup.length
  outcomes : s.results.reused + s.results.computed = (last.declarations.map Declaration.id).dedup.length

section Stats

variable {options : PipelineOptions} {history : List Inputs}
  (free : CollisionFree hashed) (fits : ∀ inputs ∈ history ++ [last], inputs.Addressable)
  (covers : ∀ b ∈ (new options).hashedAll (history ++ [last]), b ∈ hashed)

include fits covers in
theorem known_of_mem_last {f : AssetFile} (member : f ∈ AssetFile.select options.assetExtension last.assets) :
    f.Known hashed := by
  have inside : f ∈ ((new options).runAll history).files last := by
    rw [files,options_runAll]
    exact member
  exact known_of_mem_files (fits_last fits) (covers_last covers) inside

include free fits covers in
theorem print?_assets_iff {f : AssetFile} (member : f ∈ AssetFile.select options.assetExtension last.assets) :
    ((new options).runAll history).assets.print? f.path.components = some f.fingerprint ↔
      ∃ before ∈ history.getLast?, f ∈ AssetFile.select options.assetExtension before.assets := by
  have known := known_of_mem_last fits covers member
  rcases List.eq_nil_or_concat' history with rfl | ⟨earlier,before,rfl⟩
  · simp [runAll,new]
  · rw [runAll_append,assets_run,print?_assetsAfter,files,options_runAll]
    simp only [List.getLast?_concat,Option.mem_some_iff,exists_eq_left']
    constructor
    · rintro ⟨g,inside,_,printed⟩
      have known' := known_of_mem_last (fits_history fits) (covers_history covers) inside
      exact free.files_apart known' known printed ▸ inside
    · intro inside
      exact ⟨f,inside,rfl,rfl⟩

include free fits covers in
theorem print?_analyses_runAll_iff (done : ((new options).runAll history).collected last = .ok c') {d : Declaration}
    (member : d ∈ Declaration.select last.declarations) :
    ((new options).runAll history).analyses.print? d.id = some d.fingerprint ↔
      ∃ before ∈ ((new options).completed history).getLast?, d ∈ Declaration.select before.declarations := by
  cases latest : ((new options).completed history).getLast? with
  | none => simp [(empty_of_completed latest).1]
  | some before =>
    obtain ⟨c,remembers⟩ := remembers_runAll free (fits_history fits) (covers_history covers) latest
    rw [print?_analyses_iff free remembers ((covered_of_ok (covers_last covers) done).1 d member)]
    simp

include free fits covers in
theorem print?_results_runAll_iff (done : ((new options).runAll history).collected last = .ok c') {d : Declaration}
    (member : d ∈ Declaration.select last.declarations) :
    ((new options).runAll history).results.print? d.id = some (.ofBytes (d.analyze.hashed c' options.emit)) ↔
      ∃ before ∈ ((new options).completed history).getLast?, options.keepsResult before last d := by
  cases latest : ((new options).completed history).getLast? with
  | none => simp [(empty_of_completed latest).2]
  | some before =>
    have sound := sound_runAll free fits covers
    have here := covers_last covers
    have icons := collected_from free sound (fits_last fits) here done
    have fresh := (collected_eq free sound (fits_last fits) here).symm.trans done
    have covered := (covered_of_ok here done).2.1 d.analyze
      (analyzed_eq free sound here done ▸ List.mem_map_of_mem member)
    have known : ∀ f ∈ ((new options).runAll history).files last, f.Known hashed :=
      fun f member => known_of_mem_files (fits_last fits) here member
    obtain ⟨c,remembers⟩ := remembers_runAll free (fits_history fits) (covers_history covers) latest
    have kept := print?_results_iff free remembers icons fresh known covered
    rw [options_runAll,options_new] at kept
    simp [kept]

include free fits covers in
theorem counts_report (done : ((new options).runAll history).collected last = .ok c') :
    Counts options history last (((new options).runAll history).report last c').stats := by
  have analyzed := analyzed_eq free (sound_runAll free fits covers) (covers_last covers) done
  have stats := stats_report ((new options).runAll history) last c'
  rw [files,options_runAll,options_new,analyzed,MemoStats.count_map] at stats
  have assets : (((new options).runAll history).report last c').stats.assets =
      .count (AssetFile.select options.assetExtension last.assets) fun f =>
        history.getLast?.any fun before => f ∈ AssetFile.select options.assetExtension before.assets := by
    rw [stats]
    refine MemoStats.count_congr fun f member => ?_
    rw [Bool.eq_iff_iff,decide_eq_true_iff,print?_assets_iff free fits covers member,Option.any_eq_true]
    simp
  have definitions : (((new options).runAll history).report last c').stats.definitions =
      .count (Declaration.select last.declarations) fun d =>
        ((new options).completed history).getLast?.any fun before => d ∈ Declaration.select before.declarations := by
    rw [stats]
    refine MemoStats.count_congr fun d member => ?_
    rw [Bool.eq_iff_iff,decide_eq_true_iff,print?_analyses_runAll_iff free fits covers done member,
      Option.any_eq_true]
    simp
  have results : (((new options).runAll history).report last c').stats.results =
      .count (Declaration.select last.declarations) fun d =>
        ((new options).completed history).getLast?.any fun before => options.keepsResult before last d := by
    rw [stats]
    refine MemoStats.count_congr fun d member => ?_
    rw [Function.comp,d.id_analyze,Bool.eq_iff_iff,decide_eq_true_iff,
      print?_results_runAll_iff free fits covers done member,Option.any_eq_true]
    simp
  refine ⟨assets,definitions,results,?_,?_,?_⟩
  · rw [assets,MemoStats.count_total]
    exact AssetFile.groups.length_select _
  · rw [definitions,MemoStats.count_total]
    exact Declaration.groups.length_select _
  · rw [results,MemoStats.count_total]
    exact Declaration.groups.length_select _

include free fits covers in
/-- A run that did not fail does not fail when it is repeated, and takes everything over. -/
theorem fullyReused_again {earlier : List Inputs} (repeated : history = earlier ++ [last])
    (done : ((new options).runAll earlier).collected last = .ok c') :
    ((new options).runAll history).collected last = .ok c' ∧
      (((new options).runAll history).report last c').stats.fullyReused := by
  have again : ((new options).runAll history).collected last = .ok c' := by
    -- Either run collects what a new pipeline would.
    have first := collected_runAll free fits covers
    subst repeated
    have second := collected_runAll free (fits_history fits) (covers_history covers)
    rw [first,← second,done]
  refine ⟨again,?_⟩
  have counts := counts_report free fits covers again
  have latest : ((new options).completed history).getLast? = some last := by
    rw [repeated,completed_of_ok done,List.getLast?_concat]
  have before : history.getLast? = some last := by rw [repeated,List.getLast?_concat]
  have files : ∀ f ∈ AssetFile.select options.assetExtension last.assets,
      (history.getLast?.any fun before => f ∈ AssetFile.select options.assetExtension before.assets) = true := by
    simp [before]
  have declarations : ∀ d ∈ Declaration.select last.declarations,
      (((new options).completed history).getLast?.any fun before => d ∈ Declaration.select before.declarations) = true := by
    simp [latest]
  have results : ∀ d ∈ Declaration.select last.declarations,
      (((new options).completed history).getLast?.any fun before => options.keepsResult before last d) = true := by
    intro d member
    have checked : (Declaration.select last.declarations).any fun e => e.analyze = d.analyze :=
      List.any_eq_true.mpr ⟨d,member,by simp⟩
    simp [latest,PipelineOptions.keepsResult,checked]
  simp only [RunStats.fullyReused,counts.assets,counts.definitions,counts.results,MemoStats.count_congr files,
    MemoStats.count_congr declarations,MemoStats.count_congr results]
  simp [MemoStats.count]

end Stats

theorem exists_of_run_ok {p : Pipeline} {inputs : Inputs} {report : RunReport} (ran : (p.run inputs).1 = .ok report) :
    ∃ c, p.collected inputs = .ok c ∧ p.report inputs c = report := by
  cases done : p.collected inputs with
  | error e => simp [run_of_error done] at ran
  | ok c =>
    rw [run_of_ok done] at ran
    exact ⟨c,rfl,Except.ok.inj ran⟩

/-- A run that does not fail collects and shows what it does on a new pipeline, whatever ran before. -/
theorem outcome_after_history {options : PipelineOptions} {history : List Inputs} {last : Inputs} {report : RunReport}
    (free : history ≠ [] → CollisionFree ((new options).hashedAll (history ++ [last])))
    (fits : history ≠ [] → ∀ inputs ∈ history ++ [last], inputs.Addressable)
    (ran : (((new options).runAll history).run last).1 = .ok report) :
    ∃ c, (new options).collected last = .ok c ∧ report.outcome = (new options).outcome last c := by
  obtain ⟨c,done,rfl⟩ := exists_of_run_ok ran
  refine ⟨c,?_⟩
  rcases eq_or_ne history [] with rfl | before
  · exact ⟨done,rfl⟩
  · have free := free before
    have fits := fits before
    have covers : ∀ b ∈ (new options).hashedAll (history ++ [last]), b ∈ (new options).hashedAll (history ++ [last]) :=
      fun _ member => member
    exact ⟨(collected_runAll free fits covers).symm.trans done,outcome_runAll free fits covers done⟩

/-- Reuse is exact: the counters of a run that does not fail are those of `Counts`, whatever ran before. A run
that is repeated computes nothing, and after a change at one path the results computed are among those of the
definitions that ask for this path's icon. -/
theorem stats_after_history {options : PipelineOptions} {history : List Inputs} {last : Inputs}
    (free : CollisionFree ((new options).hashedAll (history ++ [last])))
    (fits : ∀ inputs ∈ history ++ [last], inputs.Addressable) :
    (∀ report, (((new options).runAll history).run last).1 = .ok report → Counts options history last report.stats) ∧
      (∀ earlier report, history = earlier ++ [last] → (((new options).runAll earlier).run last).1 = .ok report →
        ∃ again, (((new options).runAll history).run last).1 = .ok again ∧ again.stats.fullyReused) ∧
      ∀ earlier before path first report, history = earlier ++ [before] → before.DifferAt path last →
        (((new options).runAll earlier).run before).1 = .ok first →
        (((new options).runAll history).run last).1 = .ok report →
        (∀ d ∈ Declaration.select last.declarations, options.keepsResult before last d = false → d.mentions path) ∧
          report.stats.results.computed ≤ (Declaration.select last.declarations).countP (·.mentions path) := by
  have covers : ∀ b ∈ (new options).hashedAll (history ++ [last]), b ∈ (new options).hashedAll (history ++ [last]) :=
    fun _ member => member
  refine ⟨fun report ran => ?_,fun earlier report repeated ran => ?_,
    fun earlier before path first report followed differ ran ran' => ?_⟩
  · obtain ⟨c,done,rfl⟩ := exists_of_run_ok ran
    exact counts_report free fits covers done
  · obtain ⟨c,done,rfl⟩ := exists_of_run_ok ran
    obtain ⟨again,reused⟩ := fullyReused_again free fits covers repeated done
    exact ⟨_,congrArg Prod.fst (run_of_ok again),reused⟩
  · obtain ⟨c,done,rfl⟩ := exists_of_run_ok ran
    obtain ⟨c',done',rfl⟩ := exists_of_run_ok ran'
    have mentioned := Declaration.mentions_of_not_keepsResult differ options
    refine ⟨mentioned,?_⟩
    have latest : ((new options).completed history).getLast? = some before := by
      rw [followed,completed_of_ok done,List.getLast?_concat]
    rw [(counts_report free fits covers done').results,MemoStats.count,latest]
    refine List.countP_mono_left fun d member computed => mentioned d member ?_
    simpa using computed

/-- Where files are skipped no run fails. -/
theorem completed_lenient {p : Pipeline} (lenient : p.options.strictAssets = false) (history : List Inputs) :
    p.completed history = history := by
  induction history generalizing p with
  | nil => rfl
  | cons inputs history ih =>
    obtain ⟨c,done⟩ := Collected.empty.addAll_lenient (p.loaded inputs)
    have done : p.collected inputs = .ok c := by rw [collected,lenient,done]
    have later := ih (p := (p.run inputs).2) (by rw [options_run,lenient])
    rw [completed]
    rw [run_of_ok done] at later ⊢
    exact congrArg (inputs :: ·) later

theorem hashed_lenient {options : PipelineOptions} (lenient : options.strictAssets = false) (inputs : Inputs) :
    (new options).hashed inputs = (AssetFile.select options.assetExtension inputs.assets).map AssetFile.hashed ++
      ((Declaration.select inputs.declarations).map Declaration.hashed ++
        (Declaration.select inputs.declarations).map (fun d =>
          d.analyze.hashed (.ofFiles (AssetFile.select options.assetExtension inputs.assets)) options.emit) ++
        Text.utf8 "directive" :: (options.catalog.map
          (Collected.ofFiles (AssetFile.select options.assetExtension inputs.assets)).catalogHashed).toList) := by
  have analyzed : (new options).analyzed inputs = (Declaration.select inputs.declarations).map Declaration.analyze := by
    simp only [analyzed,new,Memo.outputs_empty,declarationItems,List.map_map]
    rfl
  rw [Pipeline.hashed,collected_lenient lenient,analyzed]
  simp only [List.map_map]
  rfl

def asks (typeName member : String) : Declaration where
  namespaceName := ""
  typeName
  directive := ⟨"k","x",.none⟩
  properties := [⟨"k",.enumeration "K" ⟨"","K",[member]⟩,.none⟩,⟨"x",.other "X",.none⟩]
  location := .none

def offAndOn : List Declaration := [asks "A" "Off",asks "B" "On"]

def returningOptions : PipelineOptions := { PipelineOptions.standard with emit := ⟨"C","B","r"⟩ }

/-- An icon that goes and comes back as it was, beside one that is there all the time, and a component for each. -/
def returningInputs (there : Bool) : Inputs where
  assets := (if there then [⟨⟨"off.svg"⟩,"<svg/>"⟩] else []) ++ [⟨⟨"on.svg"⟩,"<svg/>"⟩]
  declarations := offAndOn

def returningHistory : List Inputs := [returningInputs true,returningInputs false]

def returningLast : Inputs := returningInputs true

/-- All that is hashed in these runs. The second component asks for the same icon in each. -/
def returningHashed : List (List UInt8) :=
  Text.utf8 "directive" :: (returningLast.assets.map AssetFile.hashed ++ offAndOn.map Declaration.hashed ++
    [(asks "A" "Off").analyze.hashed (.ofFiles (returningInputs true).assets) returningOptions.emit,
      (asks "A" "Off").analyze.hashed (.ofFiles (returningInputs false).assets) returningOptions.emit,
      (asks "B" "On").analyze.hashed (.ofFiles (returningInputs false).assets) returningOptions.emit])

theorem select_returningInputs (there : Bool) :
    AssetFile.select "svg" (returningInputs there).assets = (returningInputs there).assets := by
  cases there <;> exact AssetFile.select_eq_self (by decide +kernel) (by decide +kernel)

theorem select_offAndOn : Declaration.select offAndOn = offAndOn :=
  Declaration.groups.select_eq_self (by decide +kernel)

open Fingerprint in
theorem returningHashed_collisionFree : CollisionFree returningHashed := by
  have firsts : returningHashed.map (fun b => (Digest.blake3 b).head?) =
      [some 67,some 42,some 169,some 87,some 56,some 175,some 155,some 68] := by
    simp only [returningHashed,offAndOn,List.map_cons,List.map_nil,Declaration.hashed,Analysis.hashed,
      Analysis.resultParts_eq,stream_cons,Part.content_value]
    decide +kernel
  exact .of_firsts (firsts ▸ by decide)

theorem returningInputs_covered (there : Bool) :
    ∀ b ∈ (new returningOptions).hashed (returningInputs there), b ∈ returningHashed := by
  have files : AssetFile.select returningOptions.assetExtension (returningInputs there).assets =
      (returningInputs there).assets := select_returningInputs there
  have declarations : Declaration.select (returningInputs there).declarations = offAndOn := select_offAndOn
  have inside : ∀ f ∈ (returningInputs there).assets, f ∈ returningLast.assets := by cases there <;> decide
  have marks : ∀ m ∈ (asks "B" "On").analyze.members, (Collected.ofFiles (returningInputs there).assets).fingerprint? m =
      (Collected.ofFiles (returningInputs false).assets).fingerprint? m := by
    cases there <;> decide +kernel
  intro b member
  rw [hashed_lenient rfl,files,declarations] at member
  rcases List.mem_append.mp member with file | member
  · have listed := List.map_subset AssetFile.hashed inside file
    exact List.mem_cons_of_mem _ (List.mem_append_left _ (List.mem_append_left _ listed))
  rcases List.mem_append.mp member with member | directive
  · rcases List.mem_append.mp member with declared | made
    · exact List.mem_cons_of_mem _ (List.mem_append_left _ (List.mem_append_right _ declared))
    · refine List.mem_cons_of_mem _ (List.mem_append_right _ ?_)
      rcases List.mem_pair.mp made with rfl | rfl
      · cases there with
        | true => exact List.mem_cons_self
        | false => exact List.mem_cons_of_mem _ List.mem_cons_self
      · show (asks "B" "On").analyze.hashed _ _ ∈ _
        rw [Analysis.hashed_congr marks]
        exact List.mem_cons_of_mem _ (List.mem_cons_of_mem _ List.mem_cons_self)
  · exact List.mem_singleton.mp directive ▸ List.mem_cons_self

theorem exists_run_ok {options : PipelineOptions} (lenient : options.strictAssets = false) (history : List Inputs)
    (last : Inputs) : ∃ report, (((new options).runAll history).run last).1 = .ok report := by
  obtain ⟨c,done⟩ := Collected.empty.addAll_lenient (((new options).runAll history).loaded last)
  have done : ((new options).runAll history).collected last = .ok c := by
    rw [collected,options_runAll,options_new,lenient,done]
  exact ⟨_,congrArg Prod.fst (run_of_ok done)⟩

theorem returningHistory_addressable :
    ∀ inputs ∈ returningHistory ++ [returningLast] ++ [returningLast], inputs.Addressable := by decide +kernel

theorem returningHistory_collisionFree :
    CollisionFree ((new returningOptions).hashedAll (returningHistory ++ [returningLast] ++ [returningLast])) := by
  have covers : ∀ inputs ∈ returningHistory ++ [returningLast] ++ [returningLast],
      ∀ b ∈ (new returningOptions).hashed inputs, b ∈ returningHashed := by
    intro inputs listed
    obtain ⟨there,rfl⟩ : ∃ there, inputs = returningInputs there := by
      simp only [returningHistory,returningLast,List.mem_append,List.mem_cons,List.not_mem_nil,or_false] at listed
      tauto
    exact returningInputs_covered there
  have fresh := hashedAll_eq_new returningHashed_collisionFree (new_sound returningOptions)
    returningHistory_addressable covers
  refine returningHashed_collisionFree.anti fun b member => ?_
  obtain ⟨inputs,listed,inside⟩ := List.mem_flatMap.mp (fresh ▸ member)
  exact covers inputs listed b inside

/-- The icon that comes back was not in the run before, so it is read again, and of two definitions that are taken
over the one that asks for it gets a new result. When the run is repeated, everything is taken over. -/
theorem stats_after_returningHistory :
    CollisionFree ((new returningOptions).hashedAll (returningHistory ++ [returningLast] ++ [returningLast])) ∧
      (∀ inputs ∈ returningHistory ++ [returningLast] ++ [returningLast], inputs.Addressable) ∧
      ∃ report again, (((new returningOptions).runAll returningHistory).run returningLast).1 = .ok report ∧
        report.stats = ⟨⟨1,1⟩,⟨2,0⟩,⟨1,1⟩⟩ ∧
        report.stats.results.computed ≤ offAndOn.countP (·.mentions ⟨"off.svg"⟩) ∧
        (((new returningOptions).runAll (returningHistory ++ [returningLast])).run returningLast).1 = .ok again ∧
        again.stats.fullyReused := by
  have fits := returningHistory_addressable
  have free := returningHistory_collisionFree
  have earlier : CollisionFree ((new returningOptions).hashedAll (returningHistory ++ [returningLast])) := by
    rw [hashedAll_append _ (returningHistory ++ [returningLast])] at free
    exact free.anti fun b member => List.mem_append_left _ member
  have files (there : Bool) : AssetFile.select returningOptions.assetExtension (returningInputs there).assets =
      (returningInputs there).assets := select_returningInputs there
  have declarations (there : Bool) : Declaration.select (returningInputs there).declarations = offAndOn :=
    select_offAndOn
  have lenient : returningOptions.strictAssets = false := rfl
  obtain ⟨first,ranFirst⟩ := exists_run_ok lenient [returningInputs true] (returningInputs false)
  obtain ⟨report,ran⟩ := exists_run_ok lenient returningHistory returningLast
  obtain ⟨again,ranAgain,reused⟩ := (stats_after_history free fits).2.1 _ _ rfl ran
  obtain ⟨counted,_,changed⟩ := stats_after_history earlier (fits_history fits)
  have mentioned := changed [returningInputs true] (returningInputs false) ⟨"off.svg"⟩ first report rfl
    ⟨rfl,by decide⟩ ranFirst ran
  refine ⟨free,fits,report,again,ran,?_,select_offAndOn ▸ mentioned.2,ranAgain,reused⟩
  obtain ⟨assets,definitions,results,_,_,_⟩ := counted _ ran
  rw [completed_lenient rfl] at definitions results
  simp only [returningHistory,returningLast,List.getLast?_cons_cons,List.getLast?_singleton,Option.any_some,files,
    declarations,PipelineOptions.keepsResult,AssetFile.winner?] at assets definitions results
  rw [RunStats.mk.injEq]
  refine ⟨assets.trans ?_,definitions.trans ?_,results.trans ?_⟩ <;> decide +kernel

end Pipeline
end InlineIcons
