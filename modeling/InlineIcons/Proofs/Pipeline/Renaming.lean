import InlineIcons.Proofs.Pipeline.UnitNames

/-! Which names are replaced, and by which. A name stays with the first result that claims it unless a fixed unit has
it; any other result gets the first number from two on that makes a name in use nowhere: by no fixed unit, by no result
before naming, later ones included, and by no earlier result after it. -/
namespace InlineIcons.HintNames

theorem numbered_suffix (stem : String) (k : Nat) :
    numbered (stem ++ SourceUnit.suffix) k = stem ++ "_" ++ toString k ++ SourceUnit.suffix := by
  have ending : SourceUnit.suffix.toList.length = 5 := by decide
  unfold numbered
  rw [String.toList_append,List.length_append,ending,Nat.add_sub_cancel,List.take_left,String.ofList_toList]

/-- The search for a free form ends, and at the least number from two on. -/
theorem free_least (taken : List String) (name : String) : ∃ k, 2 ≤ k ∧ free taken name = numbered name k ∧
    numbered name k ∉ taken ∧ ∀ j, 2 ≤ j → j < k → numbered name j ∈ taken := by
  obtain ⟨i,small,vacant⟩ := exists_numbered taken name
  unfold free
  rw [List.find?_map]
  cases found : (List.range (taken.length + 1)).find? ((!taken.contains ·) ∘ fun i => numbered name (i + 2)) with
  | none =>
    have full := List.find?_eq_none.mp found i (List.mem_range.mpr small)
    simp [vacant] at full
  | some least =>
    obtain ⟨here,_,before⟩ := List.find?_range_eq_some.mp found
    refine ⟨least + 2,by omega,rfl,by simpa using here,fun j two less => ?_⟩
    have earlier := before (j - 2) (by omega)
    rw [Function.comp_apply,show j - 2 + 2 = j by omega] at earlier
    simpa using earlier

/-- No unit has a name: no fixed one, none by the names before naming, and no earlier one by the names given so far. -/
def Vacant (reserved used : List String) (given : List GenerationResult) (name : String) : Prop :=
  name ∉ reserved ∧ name ∉ used ∧ name ∉ names given

/-- What naming makes of a result, given the results ahead of it before and after naming. -/
structure Renamed (reserved used : List String) (before given : List GenerationResult) (r r' : GenerationResult) :
    Prop where
  rest : r' = { r with hintName := r'.hintName }
  bare : r.source = none → r' = r
  kept : r.source.isSome → r.hintName ∉ reserved → r.hintName ∉ names before → r'.hintName = r.hintName
  numbered : r.source.isSome → r.hintName ∈ reserved ∨ r.hintName ∈ names before →
    ∀ stem, r.hintName = stem ++ SourceUnit.suffix → ∃ k, 2 ≤ k ∧
      r'.hintName = stem ++ "_" ++ toString k ++ SourceUnit.suffix ∧ Vacant reserved used given r'.hintName ∧
      ∀ j, 2 ≤ j → j < k → ¬ Vacant reserved used given (stem ++ "_" ++ toString j ++ SourceUnit.suffix)

/-- What the names kept while naming stand for. -/
structure Tracks (reserved used taken claimed : List String) (before given : List GenerationResult) : Prop where
  taken_iff : ∀ n, n ∈ taken ↔ ¬ Vacant reserved used given n
  claimed_iff : ∀ n, n ∉ reserved → (n ∈ claimed ↔ n ∈ names before)

variable {reserved used taken claimed : List String} {before given results : List GenerationResult}
  {r : GenerationResult}

theorem names_append (front back : List GenerationResult) : names (front ++ back) = names front ++ names back := by
  simp [names]

theorem names_one (written : r.source.isSome) : names [r] = [r.hintName] := names_cons_of_some written

theorem names_none (bare : r.source.isNone) : names [r] = [] := names_cons_of_none bare

theorem Tracks.bare (tracks : Tracks reserved used taken claimed before given) (bare : r.source.isNone) :
    Tracks reserved used taken claimed (before ++ [r]) (given ++ [r]) := by
  refine ⟨fun n => ?_,fun n outside => ?_⟩
  · rw [tracks.taken_iff,Vacant,Vacant,names_append,names_none bare,List.append_nil]
  · rw [tracks.claimed_iff n outside,names_append,names_none bare,List.append_nil]

/-- A name that is kept was in use all along; from now on it is claimed. -/
theorem Tracks.keep (tracks : Tracks reserved used taken claimed before given) (written : r.source.isSome)
    (inside : r.hintName ∈ used) :
    Tracks reserved used taken (r.hintName :: claimed) (before ++ [r]) (given ++ [r]) := by
  refine ⟨fun n => ?_,fun n outside => ?_⟩
  · rw [tracks.taken_iff,Vacant,Vacant,names_append,names_one written,List.mem_append,List.mem_singleton]
    have known : n = r.hintName → n ∈ used := fun same => same ▸ inside
    tauto
  · rw [List.mem_cons,tracks.claimed_iff n outside,names_append,names_one written,List.mem_append,
      List.mem_singleton,or_comm]

/-- A name that replaces another one is in use from now on. -/
theorem Tracks.rename (tracks : Tracks reserved used taken claimed before given) (written : r.source.isSome)
    (name : String) : Tracks reserved used (name :: taken)
      (if reserved.contains r.hintName then claimed else r.hintName :: claimed) (before ++ [r])
        (given ++ [{ r with hintName := name }]) := by
  refine ⟨fun n => ?_,fun n outside => ?_⟩
  · rw [List.mem_cons,tracks.taken_iff,Vacant,Vacant,names_append,
      names_one (r := { r with hintName := name }) written,List.mem_append,List.mem_singleton]
    tauto
  · rw [names_append,names_one written,List.mem_append,List.mem_singleton]
    split
    · next fixed =>
      have other : n ≠ r.hintName := fun same => outside (same ▸ by simpa using fixed)
      rw [tracks.claimed_iff n outside]
      tauto
    · rw [List.mem_cons,tracks.claimed_iff n outside,or_comm]

/-- Naming takes one result after another. -/
theorem assignFrom_cons (tracks : Tracks reserved used taken claimed before given)
    (inside : r.source.isSome → r.hintName ∈ used) (results : List GenerationResult) :
    ∃ r' taken' claimed', assignFrom reserved taken claimed (r :: results) =
      r' :: assignFrom reserved taken' claimed' results ∧ Renamed reserved used before given r r' ∧
        Tracks reserved used taken' claimed' (before ++ [r]) (given ++ [r']) := by
  rw [assignFrom]
  cases bare : r.source.isNone with
  | true =>
    have unwritten : ¬ r.source.isSome := by simpa using bare
    refine ⟨r,taken,claimed,if_pos rfl,?_,tracks.bare bare⟩
    exact ⟨rfl,fun _ => rfl,fun written => absurd written unwritten,fun written => absurd written unwritten⟩
  | false =>
    have written : r.source.isSome := by simpa using bare
    have unnamed : r.source ≠ none := Option.isSome_iff_ne_none.mp written
    rw [if_neg Bool.false_ne_true]
    split
    · next kept =>
      have kept : r.hintName ∉ reserved ∧ r.hintName ∉ claimed := by simpa using kept
      refine ⟨r,taken,_,rfl,⟨rfl,fun _ => rfl,fun _ _ _ => rfl,fun _ lost => ?_⟩,tracks.keep written (inside written)⟩
      rcases lost with fixed | earlier
      · exact absurd fixed kept.1
      · exact absurd ((tracks.claimed_iff _ kept.1).mpr earlier) kept.2
    · next lost =>
      refine ⟨_,_,_,rfl,⟨rfl,fun none => absurd none unnamed,fun _ outside first => ?_,fun _ _ stem same => ?_⟩,
        tracks.rename written _⟩
      · have unclaimed : r.hintName ∉ claimed := fun member => first ((tracks.claimed_iff _ outside).mp member)
        exact absurd (by simp [outside,unclaimed]) lost
      · obtain ⟨k,two,named,vacant,least⟩ := free_least taken r.hintName
        simp only [same,numbered_suffix] at named vacant least ⊢
        rw [named]
        refine ⟨k,two,rfl,?_,fun j two less => (tracks.taken_iff _).mp (least j two less)⟩
        exact not_not.mp fun taken => vacant ((tracks.taken_iff _).mpr taken)

/-- Naming gives each result its name by the results ahead of it. -/
theorem assignFrom_renamed (tracks : Tracks reserved used taken claimed before given) (inside : names results ⊆ used) :
    (assignFrom reserved taken claimed results).length = results.length ∧
    ∀ i r r', results[i]? = some r → (assignFrom reserved taken claimed results)[i]? = some r' →
      Renamed reserved used (before ++ results.take i)
        (given ++ (assignFrom reserved taken claimed results).take i) r r' := by
  induction results generalizing taken claimed before given with
  | nil => exact ⟨rfl,fun i r r' none => by simp at none⟩
  | cons r results ih =>
    have own : r.source.isSome → r.hintName ∈ used := by
      intro written
      rw [names_cons_of_some written] at inside
      exact inside List.mem_cons_self
    have later : names results ⊆ used := by
      intro n member
      refine inside ?_
      rw [← List.singleton_append,names_append]
      exact List.mem_append_right _ member
    obtain ⟨r₁,taken',claimed',step,renamed,tracks'⟩ := assignFrom_cons tracks own results
    obtain ⟨length,rest⟩ := ih tracks' later
    rw [step]
    refine ⟨by rw [List.length_cons,List.length_cons,length],fun i r₂ r₃ old new => ?_⟩
    cases i with
    | zero =>
      obtain rfl := Option.some.inj old
      obtain rfl := Option.some.inj new
      simpa using renamed
    | succ i =>
      have there := rest i r₂ r₃ old new
      simpa only [List.take_succ_cons,List.append_assoc,List.singleton_append] using there

/-- Naming is minimal and free of collisions. Results keep their order and, their names aside, stay what they are, and
one without a unit keeps its name, too. The names given differ from each other and from those of the fixed units. A
name that is not reserved stays with the first result that claims it, and any other result gets the least number from
two on that makes a name in use nowhere. -/
theorem assign_renamed (catalog : Option CatalogOptions) (results : List GenerationResult) :
    (assign catalog results).length = results.length ∧
    (∀ i r r', results[i]? = some r → (assign catalog results)[i]? = some r' →
      Renamed (HintNames.reserved catalog) (names results) (results.take i) ((assign catalog results).take i) r r') ∧
    (names (assign catalog results)).Nodup ∧
    ∀ n ∈ names (assign catalog results), n ≠ SourceUnit.directiveHint ∧ n ≠ SourceUnit.indexHint ∧
      ∀ o, catalog = some o → n ≠ SourceUnit.catalogHint o.enumName := by
  have tracks : Tracks (HintNames.reserved catalog) (names results) (HintNames.reserved catalog ++ names results) []
      [] [] := by
    refine ⟨fun n => ?_,fun n _ => Iff.rfl⟩
    have nothing : n ∉ names [] := List.not_mem_nil
    rw [Vacant,List.mem_append]
    tauto
  obtain ⟨length,renamed⟩ := assignFrom_renamed tracks (List.Subset.refl _)
  obtain ⟨distinct,unreserved⟩ := assign_given catalog results
  refine ⟨length,renamed,distinct,fun n member => ⟨?_,?_,?_⟩⟩
  · rintro rfl
    exact unreserved _ member (by simp [HintNames.reserved])
  · rintro rfl
    exact unreserved _ member (by simp [HintNames.reserved])
  · rintro o rfl rfl
    exact unreserved _ member (by simp [HintNames.reserved])

/-- Four results in the order of their identities. The first bears the name of the index; of the two that claim one
name the second has to pass over the number that the last one has in its own name. -/
def crowded : List GenerationResult :=
  [⟨⟨"SvgInline"⟩,"svg_inline.g.rs",some "",[]⟩,⟨⟨"nav::ICON"⟩,"nav__icon.g.rs",some "",[]⟩,
    ⟨⟨"nav::Icon"⟩,"nav__icon.g.rs",some "",[]⟩,⟨⟨"nav::Icon2"⟩,"nav__icon_2.g.rs",some "",[]⟩]

theorem assign_renamed_crowded :
    names (assign none crowded) =
      ["svg_inline_2.g.rs","nav__icon.g.rs","nav__icon_3.g.rs","nav__icon_2.g.rs"] ∧
    Vacant (HintNames.reserved none) (names crowded) ((assign none crowded).take 2) "nav__icon_3.g.rs" ∧
    ¬ Vacant (HintNames.reserved none) (names crowded) ((assign none crowded).take 2) "nav__icon_2.g.rs" := by
  have renamed := (assign_renamed none crowded).2.1 2 ⟨⟨"nav::Icon"⟩,"nav__icon.g.rs",some "",[]⟩
    ⟨⟨"nav::Icon"⟩,"nav__icon_3.g.rs",some "",[]⟩ rfl (by decide +kernel)
  obtain ⟨k,_,named,vacant,least⟩ := renamed.numbered rfl (.inr (by decide +kernel)) "nav__icon" (by decide +kernel)
  have third : numbered ("nav__icon" ++ SourceUnit.suffix) k = numbered ("nav__icon" ++ SourceUnit.suffix) 3 := by
    rw [numbered_suffix,← named]
    decide +kernel
  obtain rfl := numbered_injective third
  refine ⟨by decide +kernel,vacant,?_⟩
  exact least 2 (Nat.le_refl 2) (by decide)

end InlineIcons.HintNames
