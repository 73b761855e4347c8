import InlineIcons.Proofs.FileTree.Write

/-! Units that were written stand in their folder, no other generated file does, and nothing else of the tree
has changed. Writing them again finds every one as it is. -/
namespace InlineIcons

def SourceUnit.place (u : SourceUnit) (folder : Place) : Place := folder ++ [u.hintName.toList]

theorem SourceUnit.place_inj {u v : SourceUnit} {folder : Place} :
    u.place folder = v.place folder ↔ u.hintName = v.hintName := by
  simp [SourceUnit.place,String.toList_inj]

namespace FileTree

variable {t t' : FileTree} {dir : Path} {folder : Place} {units : List SourceUnit}

/-- Units are put in a folder, and nothing else changes. -/
structure Filled (t t' : FileTree) (folder : Place) (units : List SourceUnit) : Prop where
  held : ∀ u ∈ units, t'.HoldsAt (u.place folder) u.source
  others : ∀ place, (∀ u ∈ units, place ≠ u.place folder) → t'.node? place = t.node? place
  keeps : Keeps t t'
  formed : t.WellFormed → t'.WellFormed

theorem Filled.nil (t : FileTree) (folder : Place) : Filled t t folder [] :=
  ⟨nofun,fun _ _ => rfl,.refl t,id⟩

theorem Filled.cons {t'' : FileTree} {u : SourceUnit} (wrote : Wrote t t' (u.place folder) u.source)
    (filled : Filled t' t'' folder units) (fresh : u.hintName ∉ units.map SourceUnit.hintName) :
    Filled t t'' folder (u :: units) := by
  refine ⟨fun v member => ?_,fun place apart => ?_,wrote.keeps.trans filled.keeps,
    fun formed => filled.formed (wrote.formed formed)⟩
  · rcases List.mem_cons.mp member with rfl | member
    · obtain ⟨bytes,file,text⟩ := wrote.held
      refine ⟨bytes,?_,text⟩
      have apart : ∀ w ∈ units, v.place folder ≠ w.place folder := by
        intro w inside same
        rw [SourceUnit.place_inj.mp same] at fresh
        exact fresh (List.mem_map_of_mem inside)
      rw [filled.others _ apart,file]
    · exact filled.held v member
  · rw [filled.others place fun v member => apart v (List.mem_cons_of_mem u member),
      wrote.others place (apart u List.mem_cons_self)]

-- The equation is found only while the text of a path is not computed.
attribute [local irreducible] writeText in
theorem writeUnits_eq (t : FileTree) (dry : Bool) (dir : Path) (u : SourceUnit) (units : List SourceUnit) :
    t.writeUnits dry dir (u :: units) = match t.writeText dry (dir.join ⟨u.hintName⟩) u.source with
      | (t,.error e) => (t,.error e)
      | (t,.ok result) => match t.writeUnits dry dir units with
        | (t,.error e) => (t,.error e)
        | (t,.ok results) => (t,.ok (result :: results)) := rfl

theorem writeUnits_cons {u : SourceUnit} {results : List WriteResult}
    (written : t.writeUnits false dir (u :: units) = (t',.ok results)) :
    ∃ (t₁ : FileTree) (result : WriteResult) (rest : List WriteResult),
      t.writeText false (dir.join ⟨u.hintName⟩) u.source = (t₁,.ok result) ∧
        t₁.writeUnits false dir units = (t',.ok rest) := by
  rw [writeUnits_eq] at written
  generalize t.writeText false (dir.join ⟨u.hintName⟩) u.source = first at written ⊢
  obtain ⟨t₁,fault | result⟩ := first
  · simp at written
  · simp only at written
    generalize rest : t₁.writeUnits false dir units = second at written
    obtain ⟨t₂,fault | results⟩ := second
    · simp at written
    · simp only [Prod.mk.injEq] at written
      obtain ⟨rfl,_⟩ := written
      exact ⟨t₁,result,results,rfl,rest⟩

theorem writeUnits_filled (leads : t.Leads dir folder) (entries : ∀ u ∈ units, IsEntry u.hintName.toList)
    (distinct : (units.map SourceUnit.hintName).Nodup) {results : List WriteResult}
    (written : t.writeUnits false dir units = (t',.ok results)) : Filled t t' folder units := by
  induction units generalizing t results with
  | nil =>
    cases written
    exact .nil _ _
  | cons u units ih =>
    obtain ⟨t₁,result,rest,first,written⟩ := writeUnits_cons written
    have wrote := leads.wrote (entries u List.mem_cons_self) first
    rw [List.map_cons,List.nodup_cons] at distinct
    exact .cons wrote (ih (leads.keep wrote.keeps) (fun v member => entries v (List.mem_cons_of_mem u member))
      distinct.2 written) distinct.1

theorem writeUnits_ok (nonempty : units ≠ []) (entries : ∀ u ∈ units, IsEntry u.hintName.toList)
    (distinct : (units.map SourceUnit.hintName).Nodup) {results : List WriteResult}
    (written : t.writeUnits false dir units = (t',.ok results)) :
    ∃ folder, (t.withFolder dir).Leads dir folder ∧ Filled (t.withFolder dir) t' folder units := by
  cases units with
  | nil => exact absurd rfl nonempty
  | cons u units =>
    obtain ⟨t₁,result,rest,first,written⟩ := writeUnits_cons written
    obtain ⟨folder,leads,wrote⟩ := writeText_ok (entries u List.mem_cons_self) first
    rw [List.map_cons,List.nodup_cons] at distinct
    exact ⟨folder,leads,.cons wrote (writeUnits_filled (leads.keep wrote.keeps)
      (fun v member => entries v (List.mem_cons_of_mem u member)) distinct.2 written) distinct.1⟩

theorem mem_filesIn (formed : t.WellFormed) {name : List Char} :
    name ∈ t.filesIn folder ↔ ∃ bytes, t.node? (folder ++ [name]) = some (.file bytes) := by
  rw [filesIn,List.mem_filterMap]
  constructor
  · rintro ⟨⟨place,bytes | _⟩,member,found⟩
    · simp only [Option.ite_none_right_eq_some] at found
      obtain ⟨rfl,last⟩ := found
      have filled := formed.filled _ member
      rw [List.dropLast_append_getLast? name last]
      exact ⟨bytes,node?_of_mem filled member⟩
    · simp at found
  · rintro ⟨bytes,file⟩
    exact ⟨_,mem_of_node? (by simp) file,by simp⟩

theorem follow_stem_iff (filled : dir.text.isEmpty = false) (stands : t.node? folder = some .folder) :
    t.follow [] (Path.pieces dir.text.toList) = .ok folder ↔ t.follow [] dir.stem = .ok folder := by
  rw [Path.stem,filled]
  simp only [Bool.false_eq_true,if_false]
  split
  · next closed =>
    have split := List.dropLast_append_getLast? '/' (by simpa using closed)
    have pieces : Path.pieces dir.text.toList = Path.pieces dir.text.toList.dropLast ++ [[]] := by
      nth_rewrite 1 [← split]
      exact Path.pieces_append _ []
    rw [pieces,follow_concat_blank (.inl rfl)]
    exact and_iff_left stands
  · rfl

theorem leads_of_find (found : t.find dir = .ok (folder,.folder)) : t.Leads dir folder := by
  obtain ⟨reached,stands⟩ := find_ok found
  rw [reach] at reached
  split at reached
  · cases reached
  · next plain =>
    simp only [Bool.or_eq_true,not_or,Bool.not_eq_true] at plain
    exact ⟨plain.2,(follow_stem_iff plain.1 stands).mp reached,stands⟩

theorem Leads.find (leads : t.Leads dir folder) :
    t.find dir = if dir.text.isEmpty then .error .missing else .ok (folder,.folder) := by
  cases bare : dir.text.isEmpty with
  | true =>
    rw [FileTree.find,reach,bare]
    rfl
  | false =>
    refine find_of_reach ?_ leads.stands
    rw [reach,bare,leads.relative]
    exact (follow_stem_iff bare leads.stands).mpr leads.follows

/-- Generated files to remove are those whose names are not kept. -/
theorem Leads.mem_stale (leads : t.Leads dir folder) (formed : t.WellFormed) {keep : List String} {place : Place} :
    place ∈ (t.stale dir keep).map Prod.snd ↔ dir.text.isEmpty = false ∧ ∃ name, place = folder ++ [name] ∧
      isGenerated name = true ∧ String.ofList name ∉ keep ∧ ∃ bytes, t.node? place = some (.file bytes) := by
  rw [stale,leads.find]
  cases bare : dir.text.isEmpty with
  | true => simp
  | false =>
    have names : ∀ name, name ∈ t.staleNames folder keep ↔ isGenerated name = true ∧
        String.ofList name ∉ keep ∧ ∃ bytes, t.node? (folder ++ [name]) = some (.file bytes) := by
      intro name
      simp only [staleNames,List.mem_mergeSort,List.mem_filter,mem_filesIn formed,Bool.and_eq_true,
        Bool.not_eq_true',List.contains_eq_mem,decide_eq_false_iff_not]
      tauto
    simp only [Bool.false_eq_true,if_false,List.map_map,List.mem_map,Function.comp,names,true_and]
    constructor
    · rintro ⟨name,⟨marked,dropped,file⟩,rfl⟩
      exact ⟨name,rfl,marked,dropped,file⟩
    · rintro ⟨name,rfl,marked,dropped,file⟩
      exact ⟨name,⟨marked,dropped,file⟩,rfl⟩

theorem node?_foldl_erase (t : FileTree) {places : List Place} (filled : [] ∉ places) (place : Place) :
    (places.foldl FileTree.erase t).node? place = if place ∈ places then none else t.node? place := by
  induction places generalizing t with
  | nil => rfl
  | cons p places ih =>
    rw [List.mem_cons,not_or] at filled
    rw [List.foldl_cons,ih _ filled.2]
    by_cases same : place = p
    · subst same
      simp [node?_erase_self t (Ne.symm filled.1)]
    · simp [node?_erase_of_ne t same,same]

theorem foldl_erase_wellFormed (formed : t.WellFormed) {places : List Place}
    (free : ∀ p ∈ places, t.node? p ≠ some .folder) :
    (places.foldl FileTree.erase t).WellFormed ∧ Keeps t (places.foldl FileTree.erase t) := by
  induction places generalizing t with
  | nil => exact ⟨formed,.refl t⟩
  | cons p places ih =>
    have first := free p List.mem_cons_self
    have rest : ∀ q ∈ places, (t.erase p).node? q ≠ some .folder := by
      intro q member
      by_cases same : q = p
      · subst same
        by_cases root : q = []
        · exact absurd (by rw [root]; rfl) first
        · simp [node?_erase_self t root]
      · rw [node?_erase_of_ne t same]
        exact free q (List.mem_cons_of_mem p member)
    obtain ⟨formed,keeps⟩ := ih (formed.erase first) rest
    exact ⟨formed,(Keeps.erase first).trans keeps⟩

theorem prune_fst (t : FileTree) (dir : Path) (keep : List String) :
    (t.prune false dir keep).1 = ((t.stale dir keep).map Prod.snd).foldl FileTree.erase t := by
  simp [prune,List.foldl_map]

/-- The tree without the units of a folder, nor any file that pruning removes. -/
def cleared (t : FileTree) (dir : Path) (folder : Place) (units : List SourceUnit) : FileTree :=
  (units.map (·.place folder)).foldl FileTree.erase (t.prune false dir []).1

/-- A tree in which units stand in a folder, beside the same tree without them. -/
structure Fills (clean t : FileTree) (folder : Place) (units : List SourceUnit) : Prop where
  formed : clean.WellFormed
  formed' : t.WellFormed
  stands : clean.node? folder = some .folder
  absent : ∀ u ∈ units, clean.node? (u.place folder) = none
  held : ∀ u ∈ units, t.HoldsAt (u.place folder) u.source
  others : ∀ place, (∀ u ∈ units, place ≠ u.place folder) → t.node? place = clean.node? place

theorem Fills.refl (formed : t.WellFormed) (stands : t.node? folder = some .folder) : Fills t t folder [] :=
  ⟨formed,formed,stands,nofun,nofun,fun _ _ => rfl⟩

theorem stale_free (leads : t.Leads dir folder) (formed : t.WellFormed) (keep : List String) :
    ∀ p ∈ (t.stale dir keep).map Prod.snd, t.node? p ≠ some .folder := by
  intro p member
  obtain ⟨_,_,_,_,_,bytes,file⟩ := (leads.mem_stale formed).mp member
  simp [file]

theorem stale_filled (leads : t.Leads dir folder) (formed : t.WellFormed) (keep : List String) :
    [] ∉ (t.stale dir keep).map Prod.snd :=
  fun member => stale_free leads formed keep [] member rfl

/-- What a prune removes leaves the rest as it was. -/
theorem node?_prune (leads : t.Leads dir folder) (formed : t.WellFormed) (keep : List String) (place : Place) :
    (t.prune false dir keep).1.node? place =
      if place ∈ (t.stale dir keep).map Prod.snd then none else t.node? place := by
  rw [prune_fst,node?_foldl_erase t (stale_filled leads formed keep)]

theorem prune_wellFormed (leads : t.Leads dir folder) (formed : t.WellFormed) (keep : List String) :
    (t.prune false dir keep).1.WellFormed ∧ Keeps t (t.prune false dir keep).1 := by
  rw [prune_fst]
  exact foldl_erase_wellFormed formed (stale_free leads formed keep)

theorem node?_cleared (leads : t.Leads dir folder) (formed : t.WellFormed) (place : Place) :
    (t.cleared dir folder units).node? place =
      if place ∈ units.map (·.place folder) ∨ place ∈ (t.stale dir []).map Prod.snd then none
      else t.node? place := by
  have filled : [] ∉ units.map (·.place folder) := by simp [SourceUnit.place]
  rw [cleared,node?_foldl_erase _ filled,node?_prune leads formed]
  by_cases unit : place ∈ units.map (·.place folder)
  · rw [if_pos unit,if_pos (.inl unit)]
  · simp only [unit,if_false,false_or]

/-- Clearing a folder that holds no unit and no generated file takes nothing away. -/
theorem node?_cleared_of_fresh (leads : t.Leads dir folder) (formed : t.WellFormed)
    (absent : ∀ u ∈ units, t.node? (u.place folder) = none) (fresh : t.stale dir [] = []) (place : Place) :
    (t.cleared dir folder units).node? place = t.node? place := by
  rw [node?_cleared leads formed,fresh,List.map_nil]
  split
  · next gone =>
    obtain ⟨u,member,rfl⟩ := List.mem_map.mp (gone.resolve_right List.not_mem_nil)
    exact (absent u member).symm
  · rfl

theorem cleared_wellFormed (leads : t.Leads dir folder) (formed : t.WellFormed)
    (free : ∀ u ∈ units, t.node? (u.place folder) ≠ some .folder) :
    (t.cleared dir folder units).WellFormed ∧ Keeps t (t.cleared dir folder units) := by
  obtain ⟨pruned,keeps⟩ := prune_wellFormed leads formed []
  have free : ∀ p ∈ units.map (·.place folder), (t.prune false dir []).1.node? p ≠ some .folder := by
    intro p member
    obtain ⟨u,inside,rfl⟩ := List.mem_map.mp member
    rw [node?_prune leads formed]
    split
    · simp
    · exact free u inside
  obtain ⟨formed,keeps'⟩ := foldl_erase_wellFormed pruned free
  exact ⟨formed,keeps.trans keeps'⟩

theorem Filled.free (filled : Filled t t' folder units) : ∀ u ∈ units, t.node? (u.place folder) ≠ some .folder := by
  intro u member stands
  obtain ⟨bytes,file,_⟩ := filled.held u member
  rw [filled.keeps _ stands] at file
  cases file

/-- Where units are filled in and the rest is pruned, the units are all that is not in the cleared tree. -/
theorem Filled.prune (filled : Filled t t' folder units) (leads : t.Leads dir folder) (formed : t.WellFormed) :
    Fills (t.cleared dir folder units) (t'.prune false dir (units.map SourceUnit.hintName)).1 folder units := by
  have leads' := leads.keep filled.keeps
  have formed' := filled.formed formed
  obtain ⟨clean,keeps⟩ := cleared_wellFormed leads formed filled.free
  refine ⟨clean,(prune_wellFormed leads' formed' _).1,keeps folder leads.stands,fun u member => ?_,
    fun u member => ?_,fun place apart => ?_⟩
  · rw [node?_cleared leads formed,if_pos (.inl (List.mem_map_of_mem member))]
  · obtain ⟨bytes,file,text⟩ := filled.held u member
    refine ⟨bytes,?_,text⟩
    rw [node?_prune leads' formed',if_neg ?_,file]
    intro stale
    obtain ⟨_,name,same,_,dropped,_⟩ := (leads'.mem_stale formed').mp stale
    have named : u.hintName.toList = name := by simpa [SourceUnit.place] using same
    rw [← named,String.ofList_toList] at dropped
    exact dropped (List.mem_map_of_mem member)
  · have outside : place ∉ units.map (·.place folder) := by
      intro member
      obtain ⟨u,inside,same⟩ := List.mem_map.mp member
      exact apart u inside same.symm
    rw [node?_prune leads' formed',node?_cleared leads formed,filled.others place apart]
    have stale : place ∈ (t'.stale dir (units.map SourceUnit.hintName)).map Prod.snd ↔
        place ∈ (t.stale dir []).map Prod.snd := by
      rw [leads'.mem_stale formed',leads.mem_stale formed,filled.others place apart]
      refine and_congr_right fun _ => exists_congr fun name => and_congr_right fun same => ?_
      have dropped : String.ofList name ∉ units.map SourceUnit.hintName := by
        intro member
        obtain ⟨u,inside,named⟩ := List.mem_map.mp member
        exact apart u inside (by rw [same,SourceUnit.place,named,String.toList_ofList])
      simp [dropped]
    simp only [stale,outside,false_or]

theorem writeOutput_eq (t : FileTree) (dry : Bool) (dir : Path) (units : List SourceUnit) :
    t.writeOutput dry dir units = match t.writeUnits dry dir units with
      | (t,.error e) => (t,.error e)
      | (t,.ok results) => ((t.prune dry dir (units.map SourceUnit.hintName)).1,
        .ok (results ++ (t.prune dry dir (units.map SourceUnit.hintName)).2)) := rfl

theorem stale_prune (leads : t.Leads dir folder) (formed : t.WellFormed) (keep : List String) :
    (t.prune false dir keep).1.stale dir keep = [] := by
  obtain ⟨formed',keeps⟩ := prune_wellFormed leads formed keep
  have none : ∀ p, p ∉ ((t.prune false dir keep).1.stale dir keep).map Prod.snd := by
    intro p member
    obtain ⟨bare,name,same,marked,dropped,bytes,file⟩ := ((leads.keep keeps).mem_stale formed').mp member
    rw [node?_prune leads formed] at file
    split at file
    · cases file
    · next kept => exact kept ((leads.mem_stale formed).mpr ⟨bare,name,same,marked,dropped,bytes,file⟩)
  exact List.map_eq_nil_iff.mp (List.eq_nil_iff_forall_not_mem.mpr none)

/-- Where the folder stands and none of the units' places is a folder, writing succeeds. -/
theorem Leads.writeOutput (leads : t.Leads dir folder) (named : ∀ u ∈ units, UnitName u.hintName)
    (free : ∀ u ∈ units, t.node? (u.place folder) ≠ some .folder) :
    ∃ t' results, t.writeOutput false dir units = (t',.ok results) := by
  have written : ∃ t' results, t.writeUnits false dir units = (t',.ok results) := by
    induction units generalizing t with
    | nil => exact ⟨t,[],rfl⟩
    | cons u units ih =>
      have first := (named u List.mem_cons_self).entry
      obtain ⟨t₁,result,written⟩ := leads.writeText first (free u List.mem_cons_self) u.source
      have wrote := leads.wrote first written
      obtain ⟨t',results,rest⟩ := ih (leads.keep wrote.keeps) (fun v member => named v (List.mem_cons_of_mem u member))
        fun v member stands => by
          by_cases same : v.place folder = u.place folder
          · obtain ⟨bytes,file,_⟩ := wrote.held
            rw [same,SourceUnit.place,file] at stands
            cases stands
          · rw [wrote.others _ same] at stands
            exact free v (List.mem_cons_of_mem u member) stands
      exact ⟨t',result :: results,by rw [writeUnits_eq,written]; simp only [rest]⟩
  obtain ⟨t',results,written⟩ := written
  rw [writeOutput_eq,written]
  exact ⟨_,_,rfl⟩

/-- What a write that succeeds leaves: the units beside what a cleared tree holds, and nothing stale. -/
theorem writeOutput_ok (formed : t.WellFormed) (nonempty : units ≠ []) (named : ∀ u ∈ units, UnitName u.hintName)
    (distinct : (units.map SourceUnit.hintName).Nodup) {results : List WriteResult}
    (written : t.writeOutput false dir units = (t',.ok results)) :
    ∃ folder, (t.withFolder dir).Leads dir folder ∧ t'.Leads dir folder ∧
      (∀ u ∈ units, (t.withFolder dir).node? (u.place folder) ≠ some .folder) ∧
      Fills ((t.withFolder dir).cleared dir folder units) t' folder units ∧
      t'.stale dir (units.map SourceUnit.hintName) = [] := by
  rw [writeOutput_eq] at written
  generalize done : t.writeUnits false dir units = outcome at written
  obtain ⟨t₁,fault | first⟩ := outcome
  · simp at written
  · simp only [Prod.mk.injEq] at written
    obtain ⟨rfl,_⟩ := written
    obtain ⟨folder,leads,filled⟩ := writeUnits_ok nonempty (fun u member => (named u member).entry) distinct done
    have formed : (t.withFolder dir).WellFormed := (prepare_adds t _).formed formed
    have leads' := leads.keep filled.keeps
    have formed' := filled.formed formed
    exact ⟨folder,leads,leads'.keep (prune_wellFormed leads' formed' _).2,filled.free,filled.prune leads formed,
      stale_prune leads' formed' _⟩

theorem outOfDate_eq_nil : t.outOfDate dir units = [] ↔
    (∀ u ∈ units, t.holds (dir.join ⟨u.hintName⟩) u.source = true) ∧
      t.stale dir (units.map SourceUnit.hintName) = [] := by
  simp [outOfDate,staleFiles]

/-- Units that are held are not written again, and where nothing is stale nothing is removed. -/
theorem writeOutput_held (held : ∀ u ∈ units, t.holds (dir.join ⟨u.hintName⟩) u.source = true)
    (fresh : t.stale dir (units.map SourceUnit.hintName) = []) :
    t.writeOutput false dir units = (t,.ok (units.map fun u => .unchanged (dir.join ⟨u.hintName⟩))) := by
  have unchanged : t.writeUnits false dir units = (t,.ok (units.map fun u => .unchanged (dir.join ⟨u.hintName⟩))) := by
    clear fresh
    induction units with
    | nil => rfl
    | cons u units ih =>
      rw [writeUnits_eq,writeText,if_pos (held u List.mem_cons_self)]
      simp only [ih fun v member => held v (List.mem_cons_of_mem u member),List.map_cons]
  rw [writeOutput_eq,unchanged]
  simp [prune,fresh]

/-- Written units are held, as far as names and texts agree. -/
theorem Fills.holds {clean : FileTree} (fills : Fills clean t folder units) (leads : t.Leads dir folder)
    (named : ∀ u ∈ units, UnitName u.hintName) :
    ∀ u ∈ units, t.holds (dir.join ⟨u.hintName⟩) u.source = true :=
  fun u member => (leads.holds (named u member).entry).mpr (fills.held u member)

end FileTree
end InlineIcons
