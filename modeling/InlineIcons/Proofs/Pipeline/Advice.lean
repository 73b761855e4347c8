import InlineIcons.Proofs.Analysis
import InlineIcons.Proofs.Asset.Written
import InlineIcons.Proofs.Identifier.Words
import InlineIcons.Proofs.Pipeline.Reuse
import InlineIcons.Proofs.Pipeline.Units

/-! A member without an icon is reported together with the file that is looked for. What comes of adding that file
depends on two things that the report does not ask for: the extension that icons have, and how the member is
written. -/
namespace InlineIcons

namespace Path

/-- A file under a suggested name has the suggested stem, and always one extension. -/
theorem fileStem?_of_suggested {p : Path} {member file : String} (suggested : file = Identifier.suggestedFile member)
    (resolved : file ≠ "<unresolved>") (named : p.fileName? = some file.toList) :
    ∃ stem, Identifier.toStem? member = some stem ∧ p.fileStem? = some stem ∧ p.extension? = some "svg" := by
  cases found : Identifier.toStem? member with
  | none => exact absurd (by rw [suggested,Identifier.suggestedFile,found]) resolved
  | some stem =>
    have filled : stem.toList ≠ [] := by
      intro none
      have kebab := (Identifier.toIdentifier_of_toStem? found).1
      rw [Stem.IsKebab,Stem.segments,none] at kebab
      exact (kebab [] (by simp)).1 rfl
    have whole : file.toList = stem.toList ++ '.' :: ['s','v','g'] := by
      rw [suggested,Identifier.suggestedFile,found]
      exact String.toList_append
    have plain : '.' ∉ ['s','v','g'] := by decide
    have cut := cutExtension_append filled plain
    refine ⟨stem,rfl,?_,?_⟩
    · simp [fileStem?,named,whole,cut]
    · simp only [extension?,named,whole,Option.bind_some,cut,Option.map_some]

end Path

/-- An empty icon under the suggested stem has the member for its identifier just where the member is titled. -/
theorem AssetFile.provides_iff_titled {asset : AssetFile} {member stem : String} (content : asset.content = "<svg/>")
    (suggested : Identifier.toStem? member = some stem) (file : asset.path.fileStem? = some stem) :
    asset.provides member ↔ Identifier.Titled member := by
  obtain ⟨kebab,leads⟩ := Identifier.toIdentifier_of_toStem? suggested
  have named : Stem.toIdentifier (asset.path.fileStem?.getD "") =
      .ok (String.ofList ((Stem.segments stem).flatMap Stem.capitalize)) := by
    rw [file]
    exact Stem.toIdentifier_of_kebab kebab
  have blank : Markup.Style.free.slack [] := (by decide : Markup.Blanks [])
  have written : (Markup.Tree.element Asset.element [] []).Written .free asset.content.toList := by
    rw [content]
    exact .single .nil blank
  have loaded := Asset.load_eq named (by rw [Markup.Tree.ProperAll]; trivial) written
  rw [provides_iff loaded,← leads,Stem.toIdentifier_of_kebab kebab]
  simp

namespace Inputs.Adds

variable {asset : AssetFile} {before after : Inputs} (adds : Adds asset before after)

include adds in
/-- The new file is all that can bring an icon for an identifier that has none. -/
theorem winner?_isSome_iff {extension identifier : String}
    (none : AssetFile.winner? extension before.assets identifier = none) :
    (AssetFile.winner? extension after.assets identifier).isSome ↔
      asset.path.hasExtension extension ∧ asset.provides identifier := by
  constructor
  · intro found
    obtain ⟨f,found⟩ := Option.isSome_iff_exists.mp found
    have member := List.mem_of_find?_eq_some found
    have provided : f.provides identifier := by simpa using List.find?_some found
    have chosen := List.mem_filter.mp (List.mem_of_find?_eq_some (AssetFile.mem_select_iff.mp member))
    -- An old file would have provided the icon before.
    by_cases same : f.path.components = asset.path.components
    · obtain rfl := adds.eq_of_components chosen.1 same
      exact ⟨chosen.2,provided⟩
    · have old : f ∈ AssetFile.select extension before.assets := by
        rw [← adds.select_eq]
        exact List.mem_filter.mpr ⟨member,decide_eq_true same⟩
      exact absurd provided (List.find?_eq_none.mp none f old)
  · rintro ⟨extended,provided⟩
    exact List.find?_isSome.mpr ⟨asset,adds.mem_select extended,provided⟩

end Inputs.Adds

namespace Declaration

theorem assetMissing_mem_generate_iff (d : Declaration) (index : AssetIndex) (emit : EmitOptions) (member file : String)
    (location : Location) : Diagnostic.assetMissing member file location ∈ (d.analyze.generate index emit).diagnostics ↔
      ∃ known ∈ d.analyze.definition, member ∈ known.members ∧ index.get? member = none ∧
        file = Identifier.suggestedFile member ∧ location = known.directiveLocation := by
  unfold analyze
  cases checked : d.check with
  | error g =>
    have other := code_of_mem_faults (List.mem_of_mem_head? (check_eq_error_iff.mp checked))
    simp only [Analysis.generate,List.mem_singleton,Option.not_mem_none,false_and,exists_false,iff_false]
    rintro rfl
    rcases other with code | code | code <;> cases code
  | ok known =>
    simp only [Analysis.generate,Definition.generate,Definition.missing,List.mem_map,List.mem_filter,
      Option.isNone_iff_eq_none,Option.mem_some_iff,exists_eq_left']
    constructor
    · rintro ⟨m,⟨inside,none⟩,same⟩
      obtain ⟨⟨rfl,rfl⟩,rfl⟩ : (m = member ∧ Identifier.suggestedFile m = file) ∧ known.directiveLocation = location := by
        simpa [Diagnostic.assetMissing] using same
      exact ⟨inside,none,rfl,rfl⟩
    · rintro ⟨inside,none,rfl,rfl⟩
      exact ⟨member,⟨inside,none⟩,rfl⟩

end Declaration

/-- What it means that a member has its icon: no report for it, and an arm in the unit of each definition that asks
for it. -/
structure Outcome.Draws (o : Outcome) (emit : EmitOptions) (inputs : Inputs) (member : String) : Prop where
  silent : ∀ file location, Diagnostic.assetMissing member file location ∉ o.diagnostics
  arms : ∀ d ∈ Declaration.select inputs.declarations, ∀ known ∈ d.analyze.definition, member ∈ known.members →
    ∃ u ∈ o.units, ∃ index icon, u.source = CodeWriter.write (known.steps index emit) ∧
      .scope (known.enum.qualifiedPath ++ "::" ++ member ++ " =>") (known.armSteps icon) ∈ known.arms index

namespace Pipeline

variable {options : PipelineOptions} {inputs : Inputs} {c : Collected}

theorem get?_index_new (done : (new options).collected inputs = .ok c) (identifier : String) :
    c.index.get? identifier = none ↔
      AssetFile.winner? options.assetExtension inputs.assets identifier = none := by
  have icons : c.From fun _ => True := by
    rw [collected,loaded_new] at done
    exact Collected.addAll_from Collected.empty_from (fun _ _ => trivial) done
  have prints := fingerprint?_collected done identifier
  rw [Collected.get?_index icons,Option.map_eq_none_iff,← Option.map_eq_none_iff (f := Provider.fingerprint),
    ← Option.map_eq_none_iff (f := AssetFile.fingerprint),← prints]
  rfl

/-- A member is reported by a definition that asks for it when no file provides it. -/
theorem assetMissing_mem_iff (done : (new options).collected inputs = .ok c) (member file : String)
    (location : Location) : Diagnostic.assetMissing member file location ∈ ((new options).outcome inputs c).diagnostics ↔
      AssetFile.winner? options.assetExtension inputs.assets member = none ∧
        ∃ d ∈ Declaration.select inputs.declarations, ∃ known ∈ d.analyze.definition, member ∈ known.members ∧
          file = Identifier.suggestedFile member ∧ location = known.directiveLocation := by
  have skips : c.OnlySkips := collected_of_ok done ▸ Collected.ofFiles_onlySkips _
  have other : Diagnostic.assetMissing member file location ∉ c.diagnostics := by
    intro skipped
    cases skips _ skipped
  have none := get?_index_new done member
  rw [outcome,List.mem_append,diagnostics_named_new]
  simp only [other,false_or,List.mem_flatMap,Declaration.assetMissing_mem_generate_iff,none]
  constructor
  · rintro ⟨d,inside,known,data,listed,absent,named,located⟩
    exact ⟨absent,d,inside,known,data,listed,named,located⟩
  · rintro ⟨absent,d,inside,known,data,listed,named,located⟩
    exact ⟨d,inside,known,data,listed,absent,named,located⟩

/-- The source of every result is that of a unit. -/
theorem exists_unit_of_source {d : Declaration} (inside : d ∈ Declaration.select inputs.declarations) {text : String}
    (written : (d.analyze.generate c.index options.emit).source = some text) :
    ∃ u ∈ ((new options).outcome inputs c).units, u.source = text := by
  have member : some text ∈ ((new options).named inputs c).map GenerationResult.source := by
    rw [map_named_new (fun _ _ => rfl),← written]
    exact List.mem_map_of_mem inside
  obtain ⟨r,named,source⟩ := List.mem_map.mp member
  have unit : (⟨r.hintName,text⟩ : SourceUnit) ∈ ((new options).named inputs c).filterMap GenerationResult.unit? :=
    List.mem_filterMap.mpr ⟨r,named,by rw [GenerationResult.unit?,source]; rfl⟩
  refine ⟨⟨r.hintName,text⟩,?_,rfl⟩
  rw [outcome,assemble]
  exact List.mem_append_left _ (List.mem_append_right _ (List.mem_mergeSort.mpr unit))

/-- Where a file provides the member, its icon is drawn. -/
theorem draws_of_winner? (done : (new options).collected inputs = .ok c) {member : String}
    (won : (AssetFile.winner? options.assetExtension inputs.assets member).isSome) :
    ((new options).outcome inputs c).Draws options.emit inputs member := by
  refine ⟨fun file location reported => ?_,fun d inside known data listed => ?_⟩
  · have absent := ((assetMissing_mem_iff done member file location).mp reported).1
    simp [absent] at won
  · obtain ⟨icon,found⟩ : ∃ icon, c.index.get? member = some icon := by
      refine Option.ne_none_iff_exists'.mp fun absent => ?_
      simp [(get?_index_new done member).mp absent] at won
    have written : (d.analyze.generate c.index options.emit).source =
        some (CodeWriter.write (known.steps c.index options.emit)) := by
      rw [Analysis.generate,Option.mem_def.mp data]
      rfl
    obtain ⟨u,unit,source⟩ := exists_unit_of_source inside written
    refine ⟨u,unit,c.index,icon,source,List.mem_filterMap.mpr ⟨member,listed,?_⟩⟩
    rw [found]
    rfl

/-- A report of a missing icon asks for a file. With an empty icon under this file name, the next run draws the
member just where icons have the extension `svg` and the member is titled, and otherwise gives the report again.
This holds of new pipelines, and of one that has given the report, whatever it ran before. -/
theorem run_after_advice {before after : Inputs} {asset : AssetFile} {member file : String} {location : Location}
    {report : RunReport} (lenient : options.strictAssets = false) (ran : ((new options).run before).1 = .ok report)
    (advised : Diagnostic.assetMissing member file location ∈ report.diagnostics) (resolved : file ≠ "<unresolved>")
    (adds : before.Adds asset after) (named : asset.path.fileName? = some file.toList)
    (content : asset.content = "<svg/>") :
    ∃ o : Outcome, ((new options).run after).1.map RunReport.outcome = .ok o ∧
      (∀ history : List Inputs, CollisionFree ((new options).hashedAll (history ++ [before] ++ [after])) →
        (∀ inputs ∈ history ++ [before] ++ [after], inputs.Addressable) →
        (((new options).runAll (history ++ [before])).run after).1.map RunReport.outcome = .ok o) ∧
      (o.Draws options.emit after member ↔
        Path.sameAsciiCase "svg" options.assetExtension ∧ Identifier.Titled member) ∧
      (Diagnostic.assetMissing member file location ∈ o.diagnostics ↔
        ¬ (Path.sameAsciiCase "svg" options.assetExtension ∧ Identifier.Titled member)) := by
  obtain ⟨c,done,rfl⟩ := exists_of_run_ok ran
  obtain ⟨absent,d,inside,known,data,listed,suggested,located⟩ :=
    (assetMissing_mem_iff done member file location).mp advised
  obtain ⟨stem,led,file',extension⟩ := Path.fileStem?_of_suggested suggested resolved named
  have works : (AssetFile.winner? options.assetExtension after.assets member).isSome ↔
      Path.sameAsciiCase "svg" options.assetExtension ∧ Identifier.Titled member := by
    rw [adds.winner?_isSome_iff absent,AssetFile.provides_iff_titled content led file',Path.hasExtension,extension]
  -- Files that do not load are skipped, so the next run does not fail.
  obtain ⟨c',done'⟩ : ∃ c', (new options).collected after = .ok c' := by
    rw [collected,options_new,lenient]
    exact Collected.empty.addAll_lenient _
  have fresh : ((new options).run after).1.map RunReport.outcome = .ok ((new options).outcome after c') := by
    rw [run_of_ok done']
    rfl
  have reported : Diagnostic.assetMissing member file location ∈ ((new options).outcome after c').diagnostics ↔
      ¬ (AssetFile.winner? options.assetExtension after.assets member).isSome := by
    rw [assetMissing_mem_iff done',adds.declarations,Bool.not_eq_true,Option.isSome_eq_false_iff,
      Option.isNone_iff_eq_none]
    exact and_iff_left ⟨d,inside,known,data,listed,suggested,located⟩
  refine ⟨_,fresh,fun history free fits => ?_,?_,?_⟩
  · have covers : ∀ b ∈ (new options).hashedAll (history ++ [before] ++ [after]),
        b ∈ (new options).hashedAll (history ++ [before] ++ [after]) := fun _ member => member
    have next := run_eq_new free (sound_runAll free fits covers) (fits_last fits) (covers_last covers)
    rw [options_runAll,options_new] at next
    rw [next,fresh]
  · rw [← works]
    constructor
    · intro draws
      by_contra none
      exact draws.silent file location (reported.mpr none)
    · exact draws_of_winner? done'
  · rw [← works]
    exact reported

def namedOptions : PipelineOptions := { PipelineOptions.standard with assetExtension := "icon" }

def askingDeclaration : Declaration where
  namespaceName := ""
  typeName := "Icon"
  directive := ⟨"kind","extras",.none⟩
  properties := [⟨"kind",.ofEnum ⟨"","Kind",["Home"]⟩,.none⟩,⟨"extras",.other "Extras",.none⟩]
  location := .none

def askingInputs : Inputs := ⟨[],[askingDeclaration]⟩

def advisedAsset : AssetFile := ⟨⟨"icons/home.svg"⟩,"<svg/>"⟩

def advisedInputs : Inputs := ⟨[advisedAsset],[askingDeclaration]⟩

/-- Icons with an extension of their own, and a definition with one member. -/
theorem run_after_namedAdvice : ∃ report, ((new namedOptions).run askingInputs).1 = .ok report ∧
    Diagnostic.assetMissing "Home" "home.svg" .none ∈ report.diagnostics ∧
    askingInputs.Adds advisedAsset advisedInputs ∧ advisedAsset.path.fileName? = some "home.svg".toList ∧
    ∃ o : Outcome, ((new namedOptions).run advisedInputs).1.map RunReport.outcome = .ok o ∧
      ¬ o.Draws namedOptions.emit advisedInputs "Home" ∧
      Diagnostic.assetMissing "Home" "home.svg" .none ∈ o.diagnostics := by
  obtain ⟨c,done⟩ : ∃ c, (new namedOptions).collected askingInputs = .ok c := Collected.empty.addAll_lenient _
  have ran := congrArg Prod.fst (run_of_ok done)
  have advised : Diagnostic.assetMissing "Home" "home.svg" .none ∈
      ((new namedOptions).report askingInputs c).diagnostics := by
    refine (assetMissing_mem_iff done "Home" "home.svg" .none).mpr ⟨?_,askingDeclaration,?_,?_⟩
    · simp [AssetFile.winner?,AssetFile.select,askingInputs,dropRepeats]
    · simp [Declaration.select,askingInputs,dropRepeats]
    · exact ⟨_,rfl,List.mem_cons_self,by decide +kernel,rfl⟩
  have adds : askingInputs.Adds advisedAsset advisedInputs := ⟨rfl,⟨[],[],rfl,rfl⟩,by simp [askingInputs]⟩
  have named : advisedAsset.path.fileName? = some "home.svg".toList := by decide +kernel
  obtain ⟨o,next,_,drawn,again⟩ := run_after_advice rfl ran advised (by decide) adds named rfl
  have other : Path.sameAsciiCase "svg" namedOptions.assetExtension = false := by decide +kernel
  exact ⟨_,ran,advised,adds,named,o,next,by simp [drawn,other],by simp [again,other]⟩

end Pipeline

end InlineIcons
