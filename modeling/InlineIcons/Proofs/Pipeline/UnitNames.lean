import InlineIcons.Proofs.Pipeline.Run
import Mathlib.Data.List.Perm.Subperm

/-! The names of a run's units. Those of definitions are apart from each other and from the fixed ones;
the catalog's name is the only one that can meet another. -/
namespace InlineIcons

namespace HintNames

variable {reserved taken claimed : List String} {results : List GenerationResult}

theorem numbered_injective {name : String} {m n : Nat} (same : numbered name m = numbered name n) : m = n := by
  unfold numbered at same
  rw [String.append_left_inj,String.append_right_inj] at same
  exact Json.repr_eq_of_toList (congrArg String.toList same)

/-- There is one more number than names taken, so some numbered form is free. -/
theorem exists_numbered (taken : List String) (name : String) :
    ∃ i < taken.length + 1, numbered name (i + 2) ∉ taken := by
  by_contra full
  have inside : (List.range (taken.length + 1)).map (fun i => numbered name (i + 2)) ⊆ taken := by
    intro n member
    obtain ⟨i,small,rfl⟩ := List.mem_map.mp member
    by_contra free
    exact full ⟨i,List.mem_range.mp small,free⟩
  have distinct : ((List.range (taken.length + 1)).map fun i => numbered name (i + 2)).Nodup := by
    refine List.nodup_range.map fun m n same => ?_
    have := numbered_injective same
    omega
  have := (distinct.subperm inside).length_le
  rw [List.length_map,List.length_range] at this
  omega

theorem free_not_mem (taken : List String) (name : String) : free taken name ∉ taken := by
  obtain ⟨i,small,vacant⟩ := exists_numbered taken name
  unfold free
  cases found : ((List.range (taken.length + 1)).map fun i => numbered name (i + 2)).find?
      (!taken.contains ·) with
  | none =>
    have := List.find?_eq_none.mp found (numbered name (i + 2))
      (List.mem_map_of_mem (List.mem_range.mpr small))
    simp [vacant] at this
  | some n => simpa using List.find?_some found

def names (results : List GenerationResult) : List String :=
  (results.filter (·.source.isSome)).map GenerationResult.hintName

/-- What naming ensures of the names it gives, when the names it sees are all taken. -/
structure Given (reserved taken claimed before after : List String) : Prop where
  distinct : after.Nodup
  unreserved : ∀ n ∈ after, n ∉ reserved
  unclaimed : ∀ n ∈ after, n ∉ claimed
  origin : ∀ n ∈ after, n ∈ before ∨ n ∉ taken

/-- A name is kept where nothing fixed has it and no earlier result. -/
theorem Given.keep {before after : List String} {n : String}
    (given : Given reserved taken (n :: claimed) before after) (unreserved : n ∉ reserved)
    (unclaimed : n ∉ claimed) : Given reserved taken claimed (n :: before) (n :: after) := by
  refine ⟨List.nodup_cons.mpr ⟨fun member => ?_,given.distinct⟩,?_,?_,?_⟩
  · exact given.unclaimed n member List.mem_cons_self
  · intro m member
    rcases List.mem_cons.mp member with rfl | member
    · exact unreserved
    · exact given.unreserved m member
  · intro m member
    rcases List.mem_cons.mp member with rfl | member
    · exact unclaimed
    · exact fun earlier => given.unclaimed m member (List.mem_cons_of_mem n earlier)
  · intro m member
    rcases List.mem_cons.mp member with rfl | member
    · exact .inl List.mem_cons_self
    · exact (given.origin m member).imp_left (List.mem_cons_of_mem n)

/-- A name is replaced by one that is not taken, and this one is taken from then on. -/
theorem Given.rename {claimed' before after : List String} {n m : String}
    (given : Given reserved (m :: taken) claimed' before after) (vacant : m ∉ taken)
    (fixed : reserved ⊆ taken) (used : before ⊆ taken) (past : claimed ⊆ taken) (more : claimed ⊆ claimed') :
    Given reserved taken claimed (n :: before) (m :: after) := by
  refine ⟨List.nodup_cons.mpr ⟨fun member => ?_,given.distinct⟩,?_,?_,?_⟩
  · rcases given.origin m member with old | new
    · exact vacant (used old)
    · exact new List.mem_cons_self
  · intro k member
    rcases List.mem_cons.mp member with rfl | member
    · exact fun inside => vacant (fixed inside)
    · exact given.unreserved k member
  · intro k member
    rcases List.mem_cons.mp member with rfl | member
    · exact fun inside => vacant (past inside)
    · exact fun inside => given.unclaimed k member (more inside)
  · intro k member
    rcases List.mem_cons.mp member with rfl | member
    · exact .inr vacant
    · rcases given.origin k member with old | new
      · exact .inl (List.mem_cons_of_mem n old)
      · exact .inr fun inside => new (List.mem_cons_of_mem m inside)

theorem names_cons_of_some {r : GenerationResult} (written : r.source.isSome) :
    names (r :: results) = r.hintName :: names results := by simp [names,written]

theorem names_cons_of_none {r : GenerationResult} (bare : r.source.isNone) :
    names (r :: results) = names results := by simp [names,Option.isNone_iff_eq_none.mp bare]

theorem assignFrom_given (fixed : reserved ⊆ taken) (used : names results ⊆ taken)
    (past : claimed ⊆ taken) :
    Given reserved taken claimed (names results) (names (assignFrom reserved taken claimed results)) := by
  induction results generalizing taken claimed with
  | nil => exact ⟨List.nodup_nil,nofun,nofun,nofun⟩
  | cons r results ih =>
    cases bare : r.source.isNone with
    | true =>
      rw [names_cons_of_none bare] at used ⊢
      rw [assignFrom,if_pos bare,names_cons_of_none bare]
      exact ih fixed used past
    | false =>
      have written : r.source.isSome := by simpa using bare
      rw [names_cons_of_some written] at used ⊢
      have here : r.hintName ∈ taken := used List.mem_cons_self
      have there : names results ⊆ taken := fun n member => used (List.mem_cons_of_mem _ member)
      rw [assignFrom,bare,if_neg Bool.false_ne_true]
      split
      · next kept =>
        have kept : r.hintName ∉ reserved ∧ r.hintName ∉ claimed := by simpa using kept
        rw [names_cons_of_some written]
        exact (ih fixed there (List.cons_subset.mpr ⟨here,past⟩)).keep kept.1 kept.2
      · have vacant := free_not_mem taken r.hintName
        have wider : ∀ {l : List String}, l ⊆ taken → l ⊆ free taken r.hintName :: taken :=
          fun inside => List.subset_cons_of_subset _ inside
        rw [names_cons_of_some (r := { r with hintName := free taken r.hintName }) written]
        split
        · exact (ih (wider fixed) (wider there) (wider past)).rename vacant fixed there past (List.Subset.refl _)
        · exact (ih (wider fixed) (wider there) (wider (List.cons_subset.mpr ⟨here,past⟩))).rename vacant
            fixed there past (List.subset_cons_self _ _)

/-- The names given to a run's results differ, and none of them belongs to a fixed unit. -/
theorem assign_given (catalog : Option CatalogOptions) (results : List GenerationResult) :
    (names (assign catalog results)).Nodup ∧
      ∀ n ∈ names (assign catalog results), n ∉ HintNames.reserved catalog := by
  have given : Given (HintNames.reserved catalog) (HintNames.reserved catalog ++ names results) []
      (names results) (names (assign catalog results)) :=
    assignFrom_given (List.subset_append_left _ _) (List.subset_append_right _ _) (List.nil_subset _)
  exact ⟨given.distinct,given.unreserved⟩

theorem map_assignFrom {α : Type} {f : GenerationResult → α} (blind : ∀ r name, f { r with hintName := name } = f r)
    (reserved taken claimed : List String) (results : List GenerationResult) :
    (assignFrom reserved taken claimed results).map f = results.map f := by
  induction results generalizing taken claimed with
  | nil => rfl
  | cons r results ih =>
    rw [assignFrom]
    split
    · rw [List.map_cons,List.map_cons,ih]
    split
    · rw [List.map_cons,List.map_cons,ih]
    · rw [List.map_cons,List.map_cons,ih,blind]

end HintNames

namespace Pipeline

/-- The units kept under the two keys bear the names of the fixed units. -/
def FixedNamed (options : PipelineOptions) (key : String) (_ : Fingerprint) (value : SourceUnit) : Prop :=
  (key = "directive" → value.hintName = SourceUnit.directiveHint) ∧
    (key = "catalog" → ∀ o, options.catalog = some o → value.hintName = SourceUnit.catalogHint o.enumName)

def Named (p : Pipeline) : Prop := p.units.All (FixedNamed p.options)

variable {p : Pipeline} {c : Collected}

section Kept

variable {kept : String → Fingerprint → SourceUnit → Prop}

/-- What holds of the fixed units under their keys, whatever the fingerprints are. -/
structure HoldsOfFixed (options : PipelineOptions) (kept : String → Fingerprint → SourceUnit → Prop) : Prop where
  directive : ∀ print, kept "directive" print SourceUnit.directive
  catalog : ∀ o, options.catalog = some o → ∀ index print, kept "catalog" print (SourceUnit.catalog index o)

theorem directiveEntry_kept (fixed : HoldsOfFixed p.options kept) (table : p.units.All kept) :
    p.directiveEntry.2.1.All kept :=
  Memo.getOrCompute_all table .zero (fixed.directive _)

theorem units_run (fixed : HoldsOfFixed p.options kept) (table : p.units.All kept) (inputs : Inputs) :
    (p.run inputs).2.units.All kept := by
  cases done : p.collected inputs with
  | error e =>
    rw [run_of_error done]
    exact table
  | ok c =>
    rw [run_of_ok done]
    simp only [after,fixedUnits_snd]
    cases chosen : p.options.catalog with
    | none => exact directiveEntry_kept fixed table
    | some o => exact Memo.getOrCompute_all (directiveEntry_kept fixed table) .zero (fixed.catalog o chosen _ _)

theorem units_runAll (fixed : HoldsOfFixed p.options kept) (table : p.units.All kept) (history : List Inputs) :
    (p.runAll history).units.All kept := by
  induction history generalizing p with
  | nil => exact table
  | cons inputs history ih =>
    apply ih
    · rwa [options_run]
    · exact units_run fixed table inputs

theorem fixedUnits_all (fixed : HoldsOfFixed p.options kept) (table : p.units.All kept) (c : Collected) :
    (∃ print, kept "directive" print p.directiveEntry.1) ∧
      ∀ o, p.options.catalog = some o → ∃ print, kept "catalog" print (p.catalogEntry c o).1 := by
  refine ⟨⟨.ofBytes (Text.utf8 "directive"),?_⟩,fun o chosen => ⟨.ofBytes (c.catalogHashed o),?_⟩⟩
  · exact Memo.getOrCompute_holds table .zero (fixed.directive _)
  · exact Memo.getOrCompute_holds (directiveEntry_kept fixed table) .zero (fixed.catalog o chosen _ _)

end Kept

theorem fixed_named (options : PipelineOptions) : HoldsOfFixed options (FixedNamed options) where
  directive _ := ⟨fun _ => rfl,fun key => absurd key (by decide)⟩
  catalog o chosen index print := by
    refine ⟨fun key => absurd key (by decide),fun _ o' chosen' => ?_⟩
    rw [Option.some.inj (chosen'.symm.trans chosen)]
    rfl

/-- The fixed units bear their own names, also those taken from the table. -/
theorem fixedUnits_names (named : p.Named) (c : Collected) :
    (p.fixedUnits c).1.map SourceUnit.hintName =
      SourceUnit.directiveHint :: (p.options.catalog.map fun o => SourceUnit.catalogHint o.enumName).toList := by
  obtain ⟨⟨_,directive⟩,catalog⟩ := fixedUnits_all (fixed_named p.options) named c
  rw [fixedUnits_fst,List.map_cons,directive.1 rfl]
  cases chosen : p.options.catalog with
  | none => rfl
  | some o =>
    obtain ⟨_,catalog⟩ := catalog o chosen
    simp [catalog.2 rfl o chosen]

theorem runAll_named (options : PipelineOptions) (history : List Inputs) : ((new options).runAll history).Named := by
  rw [Named,options_runAll]
  exact units_runAll (fixed_named options) Memo.all_empty history

theorem names_of_units (results : List GenerationResult) :
    (results.filterMap GenerationResult.unit?).map SourceUnit.hintName = HintNames.names results := by
  induction results with
  | nil => rfl
  | cons r results ih =>
    cases written : r.source with
    | none =>
      rw [HintNames.names_cons_of_none (by simp [written]),← ih]
      simp [GenerationResult.unit?,written]
    | some source =>
      rw [HintNames.names_cons_of_some (by simp [written]),← ih]
      simp [GenerationResult.unit?,written]

/-- The names of a run's units in order: the fixed units, the definitions' units with names of their own,
and the index. -/
theorem unit_names {options : PipelineOptions} {history : List Inputs} {inputs : Inputs} {report : RunReport}
    (ran : (((new options).runAll history).run inputs).1 = .ok report) :
    ∃ definitions : List String,
      report.units.map SourceUnit.hintName =
        SourceUnit.directiveHint :: (options.catalog.map fun o => SourceUnit.catalogHint o.enumName).toList ++
          definitions ++ [SourceUnit.indexHint] ∧
      definitions.Nodup ∧ ∀ n ∈ definitions, n ∉ HintNames.reserved options.catalog := by
  have named := runAll_named options history
  have chosen : ((new options).runAll history).options = options := options_runAll ..
  generalize (new options).runAll history = p at ran named chosen
  cases done : p.collected inputs with
  | error e => simp [run_of_error done] at ran
  | ok c =>
    rw [run_of_ok done,Except.ok.injEq] at ran
    have sorted := List.mergeSort_perm ((p.named inputs c).filterMap GenerationResult.unit?) unitPrecedes
    have given := sorted.map SourceUnit.hintName
    rw [names_of_units] at given
    obtain ⟨distinct,unreserved⟩ := HintNames.assign_given p.options.catalog (p.generated inputs c)
    refine ⟨_,?_,given.nodup_iff.mpr distinct,fun n member => ?_⟩
    · rw [← ran,← chosen,Pipeline.report,assemble,List.map_append,List.map_append,fixedUnits_names named]
      rfl
    · exact chosen ▸ unreserved n (given.mem_iff.mp member)

/-- Names of this shape differ exactly where the catalog's name is none of the other two. -/
theorem names_nodup_iff {catalog : Option CatalogOptions} {definitions : List String} (distinct : definitions.Nodup)
    (unreserved : ∀ n ∈ definitions, n ∉ HintNames.reserved catalog) :
    (SourceUnit.directiveHint :: (catalog.map fun o => SourceUnit.catalogHint o.enumName).toList ++
      definitions ++ [SourceUnit.indexHint]).Nodup ↔ ∀ o, catalog = some o →
        SourceUnit.catalogHint o.enumName ≠ SourceUnit.directiveHint ∧
          SourceUnit.catalogHint o.enumName ≠ SourceUnit.indexHint := by
  have apart : SourceUnit.directiveHint ≠ SourceUnit.indexHint := by decide
  have outside : SourceUnit.directiveHint ∉ definitions :=
    fun member => unreserved _ member (by simp [HintNames.reserved])
  have before : ∀ n ∈ definitions, ¬n = SourceUnit.indexHint :=
    fun n member same => unreserved n member (by simp [HintNames.reserved,same])
  cases chosen : catalog with
  | none => simpa [distinct,outside,apart,List.nodup_append] using before
  | some o =>
    have fresh : SourceUnit.catalogHint o.enumName ∉ definitions :=
      fun member => unreserved _ member (by simp [HintNames.reserved,chosen])
    have first : SourceUnit.directiveHint = SourceUnit.catalogHint o.enumName ↔
        SourceUnit.catalogHint o.enumName = SourceUnit.directiveHint := eq_comm
    simpa [distinct,outside,apart,fresh,first,List.nodup_append] using fun _ _ => before

theorem catalogHint_eq_iff (name stem : String) :
    SourceUnit.catalogHint name = stem ++ SourceUnit.suffix ↔ Text.snakeCase name = stem := by
  rw [SourceUnit.catalogHint,String.append_left_inj]

/-- The names of a run's units differ exactly when the catalog, if there is one, is not named as another
fixed unit; there is no other way for two units to get one name. -/
theorem units_distinct_iff {options : PipelineOptions} {history : List Inputs} {inputs : Inputs}
    {report : RunReport} (ran : (((new options).runAll history).run inputs).1 = .ok report) :
    (report.units.map SourceUnit.hintName).Nodup ↔ ∀ o, options.catalog = some o →
      Text.snakeCase o.enumName ≠ "generate_svg_attribute" ∧ Text.snakeCase o.enumName ≠ "svg_inline" := by
  obtain ⟨definitions,shape,distinct,unreserved⟩ := unit_names ran
  have directive : SourceUnit.directiveHint = "generate_svg_attribute" ++ SourceUnit.suffix := by decide
  have index : SourceUnit.indexHint = "svg_inline" ++ SourceUnit.suffix := by decide
  rw [shape,names_nodup_iff distinct unreserved,directive,index]
  simp only [ne_eq,catalogHint_eq_iff]

/-- A catalog whose file is the index. -/
def indexNamed : PipelineOptions := { PipelineOptions.standard with catalog := some ⟨"SvgInline"⟩ }

theorem units_collide_indexNamed :
    ∃ report, (((new indexNamed).runAll []).run ⟨[],[]⟩).1 = .ok report ∧
      ¬(report.units.map SourceUnit.hintName).Nodup := by
  obtain ⟨c,done⟩ := Collected.empty.addAll_lenient ((new indexNamed).loaded ⟨[],[]⟩)
  have ran : (((new indexNamed).runAll []).run ⟨[],[]⟩).1 = .ok ((new indexNamed).report ⟨[],[]⟩ c) :=
    congrArg Prod.fst (run_of_ok (p := new indexNamed) done)
  have same : Text.snakeCase "SvgInline" = "svg_inline" := by decide +kernel
  exact ⟨_,ran,fun distinct => ((units_distinct_iff ran).mp distinct ⟨"SvgInline"⟩ rfl).2 same⟩

end Pipeline
end InlineIcons
