import InlineIcons.Proofs.Pipeline.Accounts
import InlineIcons.Proofs.Pipeline.Order

/-! Definitions do not interfere. What a run gives for a definition is a matter of its first declaration and of the
icons of its members; whatever else is declared or read can only change what its unit is called. -/
namespace InlineIcons

/-- The enum whose members a declaration tells apart. -/
def Declaration.enum? (d : Declaration) : Option EnumRef :=
  (d.property? d.directive.kindProperty).bind (·.type.enum?)

theorem Declaration.exists_enum?_of_mem {d : Declaration} {member : String} (inside : member ∈ d.analyze.members) :
    ∃ e ∈ d.enum?, member ∈ e.members := by
  unfold Analysis.members analyze at inside
  cases checked : d.check with
  | error g => simp [checked] at inside
  | ok known =>
    simp only [checked] at inside
    unfold check at checked
    dsimp only at checked
    split at checked
    · cases checked
    · next kind found =>
      split at checked
      · cases checked
      split at checked
      · cases checked
      · next e target =>
        rw [← Except.ok.inj checked] at inside
        exact ⟨e,by simp [enum?,found,target],inside⟩

def AssetFile.icon? (extension : String) (files : List AssetFile) (identifier : String) : Option Asset :=
  (winner? extension files identifier).bind fun f => f.load.toOption

theorem AssetFile.identifier_of_icon? {extension : String} {files : List AssetFile} {identifier : String} {a : Asset}
    (found : icon? extension files identifier = some a) : a.identifier = identifier := by
  obtain ⟨f,won,loaded⟩ := Option.bind_eq_some_iff.mp found
  have loaded : f.load = .ok a := by
    cases own : f.load with
    | error e => simp [own,Except.toOption] at loaded
    | ok b => simpa [own,Except.toOption] using loaded
  exact (provides_iff loaded identifier).mp (List.find?_some won)

/-- Two inputs that agree on a declaration: it is the first of its identity in both, and each member of its enum has
an icon with the same attributes and the same body in both, or in neither. -/
structure Inputs.AgreeOn (extension : String) (d : Declaration) (inputs other : Inputs) : Prop where
  first : inputs.declarations.find? (·.id = d.id) = some d
  first' : other.declarations.find? (·.id = d.id) = some d
  icons : ∀ e ∈ d.enum?, ∀ m ∈ e.members,
    (AssetFile.icon? extension inputs.assets m).map (fun a => (a.attributes,a.body)) =
      (AssetFile.icon? extension other.assets m).map fun a => (a.attributes,a.body)

theorem Inputs.AgreeOn.icon?_eq {extension : String} {d : Declaration} {inputs other : Inputs}
    (agree : inputs.AgreeOn extension d other) {member : String} (inside : member ∈ d.analyze.members) :
    AssetFile.icon? extension inputs.assets member = AssetFile.icon? extension other.assets member := by
  obtain ⟨e,target,listed⟩ := Declaration.exists_enum?_of_mem inside
  have parts := agree.icons e target member listed
  cases found : AssetFile.icon? extension inputs.assets member with
  | none =>
    rw [found,Option.map_none,eq_comm,Option.map_eq_none_iff] at parts
    exact parts.symm
  | some a =>
    rw [found,Option.map_some,eq_comm,Option.map_eq_some_iff] at parts
    obtain ⟨b,found',same⟩ := parts
    have identifiers := (AssetFile.identifier_of_icon? found).trans (AssetFile.identifier_of_icon? found').symm
    obtain ⟨_,_,_⟩ := a
    obtain ⟨_,_,_⟩ := b
    simp_all

namespace Pipeline

variable {options : PipelineOptions} {inputs : Inputs} {c : Collected}

theorem get?_index_eq_icon? (done : (new options).collected inputs = .ok c) (identifier : String) :
    c.index.get? identifier = AssetFile.icon? options.assetExtension inputs.assets identifier := by
  obtain rfl := collected_of_ok done
  have distinct := AssetFile.distinct_select options.assetExtension inputs.assets
  rw [Collected.get?_index (Collected.ofFiles_from distinct),AssetFile.icon?,AssetFile.winner?]
  cases first : (AssetFile.select options.assetExtension inputs.assets).find? (AssetFile.provides identifier) with
  | none => rw [Collected.provider?_ofFiles_none first]; rfl
  | some f =>
    obtain ⟨a,loaded,found⟩ := Collected.provider?_ofFiles_some distinct first
    simp [found,loaded,Except.toOption]

theorem result_new (options : PipelineOptions) (c : Collected) {d : Declaration}
    (first : inputs.declarations.find? (·.id = d.id) = some d) :
    ∃ r, ((new options).named inputs c).find? (·.id = d.id) = some r ∧ r.id = d.id ∧
      r.source = (d.analyze.generate c.index options.emit).source ∧
      r.diagnostics = (d.analyze.generate c.index options.emit).diagnostics := by
  have listed : d.id ∈ ((new options).named inputs c).map GenerationResult.id := by
    rw [ids_named_new]
    exact (Declaration.groups.mem_keys_select _ d.id).mpr (List.mem_map_of_mem (List.mem_of_find?_eq_some first))
  obtain ⟨r,member,own⟩ := List.mem_map.mp listed
  obtain ⟨r,found⟩ : ∃ r, ((new options).named inputs c).find? (·.id = d.id) = some r :=
    Option.isSome_iff_exists.mp (List.find?_isSome.mpr ⟨r,member,by simpa using own⟩)
  have own : r.id = d.id := by simpa using List.find?_some found
  obtain ⟨e,first',answers⟩ := answers_named_new (List.mem_of_find?_eq_some found)
  obtain rfl : d = e := Option.some.inj (first.symm.trans (own ▸ first'))
  exact ⟨r,found,own,answers.source,answers.diagnostics⟩

/-- Definitions do not interfere: two runs that do not fail, on inputs that agree on a declaration, give it the same
result, whatever else they are given and whatever ran before either of them; only the name of its unit can differ. -/
theorem result_of_agreeOn {options : PipelineOptions} {history history' : List Inputs} {inputs other : Inputs}
    {report report' : RunReport} {d : Declaration}
    (free : history ≠ [] → CollisionFree ((new options).hashedAll (history ++ [inputs])))
    (fits : history ≠ [] → ∀ i ∈ history ++ [inputs], i.Addressable)
    (free' : history' ≠ [] → CollisionFree ((new options).hashedAll (history' ++ [other])))
    (fits' : history' ≠ [] → ∀ i ∈ history' ++ [other], i.Addressable)
    (ran : (((new options).runAll history).run inputs).1 = .ok report)
    (ran' : (((new options).runAll history').run other).1 = .ok report')
    (agree : inputs.AgreeOn options.assetExtension d other) :
    ∃ r r', report.result? d.id = some r ∧ report'.result? d.id = some r' ∧ r.source = r'.source ∧
      r.diagnostics = r'.diagnostics ∧ r' = { r with hintName := r'.hintName } := by
  obtain ⟨c,done,shown⟩ := outcome_after_history free fits ran
  obtain ⟨c',done',shown'⟩ := outcome_after_history free' fits' ran'
  have results : report.results = (new options).named inputs c := congrArg Outcome.results shown
  have results' : report'.results = (new options).named other c' := congrArg Outcome.results shown'
  have same : d.analyze.generate c.index options.emit = d.analyze.generate c'.index options.emit := by
    refine Analysis.generate_congr fun m inside => ?_
    rw [get?_index_eq_icon? done,get?_index_eq_icon? done',agree.icon?_eq inside]
  obtain ⟨r,found,id,source,diagnostics⟩ := result_new options c agree.first
  obtain ⟨r',found',id',source',diagnostics'⟩ := result_new options c' agree.first'
  have sources : r.source = r'.source := by rw [source,source',same]
  have reports : r.diagnostics = r'.diagnostics := by rw [diagnostics,diagnostics',same]
  refine ⟨r,r',?_,?_,sources,reports,?_⟩
  · rw [RunReport.result?,results,found]
  · rw [RunReport.result?,results',found']
  · obtain ⟨_,_,_,_⟩ := r
    obtain ⟨_,_,_,_⟩ := r'
    simp_all

def aloneInputs : Inputs := ⟨[⟨⟨"home.svg"⟩,"<svg></svg>"⟩],[rivalDeclaration "Icon"]⟩

def crowdedInputs : Inputs where
  assets := [⟨⟨"a/home.svg"⟩,"<svg/>"⟩,⟨⟨"b/home.svg"⟩,"<svg><g/></svg>"⟩,⟨⟨"b/user.svg"⟩,"<svg>"⟩]
  declarations := [rivalDeclaration "ICON",rivalDeclaration "Icon",
    { rivalDeclaration "Icon" with properties := [] }]

theorem agreeOn_crowdedInputs : aloneInputs.AgreeOn "svg" (rivalDeclaration "Icon") crowdedInputs := by
  have alone : AssetFile.select "svg" aloneInputs.assets = aloneInputs.assets :=
    AssetFile.select_eq_self (by decide +kernel) (by decide +kernel)
  have crowded : AssetFile.select "svg" crowdedInputs.assets = crowdedInputs.assets :=
    AssetFile.select_eq_self (by decide +kernel) (by decide +kernel)
  refine ⟨by decide +kernel,by decide +kernel,?_⟩
  simp only [AssetFile.icon?,AssetFile.winner?,alone,crowded]
  decide +kernel

/-- One definition by itself, and among others: one whose unit would have the same name, one of its own identity
behind it, a second file for its icon and one that does not load. -/
theorem result_in_crowdedInputs : aloneInputs.AgreeOn "svg" (rivalDeclaration "Icon") crowdedInputs ∧
    ∃ report report', ((new .standard).run aloneInputs).1 = .ok report ∧
      ((new .standard).run crowdedInputs).1 = .ok report' ∧
      ∃ r r', report.result? (rivalDeclaration "Icon").id = some r ∧
        report'.result? (rivalDeclaration "Icon").id = some r' ∧ r.source = r'.source ∧
        r.diagnostics = r'.diagnostics ∧ r' = { r with hintName := r'.hintName } := by
  have ran : ((new .standard).run aloneInputs).1 = .ok _ := run_lenient rfl aloneInputs
  have ran' : ((new .standard).run crowdedInputs).1 = .ok _ := run_lenient rfl crowdedInputs
  exact ⟨agreeOn_crowdedInputs,_,_,ran,ran',@result_of_agreeOn .standard [] [] _ _ _ _ _
    (absurd rfl) (absurd rfl) (absurd rfl) (absurd rfl) ran ran' agreeOn_crowdedInputs⟩

end Pipeline
end InlineIcons
