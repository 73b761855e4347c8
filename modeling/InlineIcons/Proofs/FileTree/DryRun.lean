import InlineIcons.Proofs.FileTree.Output
import Mathlib.Data.List.Forall2

/-! What a dry run tells of a write. Both look at one file after the other, but only the write makes the folder
they stand in, so the two can part where a path that was lost leads to a folder that was there before. -/
namespace InlineIcons

namespace WriteResult

/-- What a dry run says of a file, beside what a write does with it. -/
inductive Foretells : WriteResult → WriteResult → Prop where
  | unchanged (p : Path) : Foretells (.unchanged p) (.unchanged p)
  | written (p : Path) (content : String) :
    Foretells (.dryRun p content) (.written p (Text.utf8 content).length)
  | removed (p : Path) : Foretells (.dryRun p "") (.removed p)

theorem Foretells.path_eq {told done : WriteResult} (foretells : Foretells told done) : told.path = done.path := by
  cases foretells <;> rfl

def ofText (dry held : Bool) (p : Path) (content : String) : WriteResult :=
  if held then .unchanged p
  else if dry then .dryRun p content
  else .written p (Text.utf8 content).length

def ofStale (dry : Bool) (p : Path) : WriteResult := if dry then .dryRun p "" else .removed p

theorem path_ofText (dry held : Bool) (p : Path) (content : String) : (ofText dry held p content).path = p := by
  cases held <;> cases dry <;> rfl

theorem foretells_ofText_iff {held held' : Bool} {p : Path} {content : String} :
    Foretells (ofText true held p content) (ofText false held' p content) ↔ held = held' := by
  constructor
  · intro foretells
    cases held <;> cases held' <;> first | rfl | (simp [ofText] at foretells; cases foretells)
  · rintro rfl
    cases held
    · exact .written p content
    · exact .unchanged p

theorem foretells_ofStale_iff {p q : Path} : Foretells (ofStale true p) (ofStale false q) ↔ p = q := by
  constructor
  · exact Foretells.path_eq
  · rintro rfl
    exact .removed p

end WriteResult

theorem FileTree.eq_of_nameUpTo {a b : List Char} (first : nameUpTo a b = true) (second : nameUpTo b a = true) :
    a = b := by
  rw [nameUpTo,Path.compareChars_eq] at first second
  have same : compare (a.map Char.toNat) (b.map Char.toNat) = .eq := by
    have swap : compare (b.map Char.toNat) (a.map Char.toNat) =
        (compare (a.map Char.toNat) (b.map Char.toNat)).swap := Std.OrientedCmp.eq_swap
    rw [swap] at second
    cases order : compare (a.map Char.toNat) (b.map Char.toNat) <;> simp [order] at first second ⊢
  exact List.map_injective_iff.mpr (fun _ _ => Char.toNat_inj.mp) (Std.LawfulEqCmp.eq_of_compare same)

namespace FileTree

variable {t t' : FileTree} {dir : Path} {folder : Place} {units : List SourceUnit} {keep : List String}

def unitResult (t : FileTree) (dry : Bool) (dir : Path) (u : SourceUnit) : WriteResult :=
  .ofText dry (t.holds (dir.join ⟨u.hintName⟩) u.source) (dir.join ⟨u.hintName⟩) u.source

theorem writeText_dry (t : FileTree) (p : Path) (content : String) :
    t.writeText true p content = (t,.ok (.ofText true (t.holds p content) p content)) := by
  rw [writeText,WriteResult.ofText]
  split <;> rfl

theorem writeText_result {p : Path} {content : String} {result : WriteResult}
    (written : t.writeText false p content = (t',.ok result)) :
    result = .ofText false (t.holds p content) p content := by
  rw [writeText] at written
  cases held : t.holds p content with
  | true =>
    rw [held] at written
    exact (Except.ok.inj (Prod.mk.inj written).2).symm
  | false =>
    simp only [held,Bool.false_eq_true,if_false] at written
    generalize t.prepare p = prepared at written
    obtain ⟨made,fault | _⟩ := prepared
    · cases written
    · simp only at written
      cases put : made.write p (Text.utf8 content) with
      | error fault => simp [put] at written
      | ok t₁ =>
        simp only [put] at written
        exact (Except.ok.inj (Prod.mk.inj written).2).symm

theorem prune_snd (t : FileTree) (dry : Bool) (dir : Path) (keep : List String) :
    (t.prune dry dir keep).2 = (t.staleFiles dir keep).map (.ofStale dry) := by
  cases dry <;> simp [prune,staleFiles,WriteResult.ofStale]

/-- The results of a dry run. -/
def told (t : FileTree) (dir : Path) (units : List SourceUnit) : List WriteResult :=
  units.map (t.unitResult true dir) ++
    (t.staleFiles dir (units.map SourceUnit.hintName)).map (WriteResult.ofStale true)

/-- A dry run looks at every file in the tree as it is. -/
theorem writeOutput_dry (t : FileTree) (dir : Path) (units : List SourceUnit) :
    t.writeOutput true dir units = (t,.ok (t.told dir units)) := by
  have told : t.writeUnits true dir units = (t,.ok (units.map (t.unitResult true dir))) := by
    induction units with
    | nil => rfl
    | cons u units ih =>
      rw [writeUnits_eq,writeText_dry]
      simp only [ih,List.map_cons,unitResult]
  rw [writeOutput_eq,told]
  simp only [prune_snd]
  rfl

/-- What is out of date is what a dry run does not find as it is to be. -/
theorem outOfDate_eq_told (t : FileTree) (dir : Path) (units : List SourceUnit) :
    t.outOfDate dir units = ((t.told dir units).filter (·.content?.isSome)).map WriteResult.path := by
  have changed : ∀ u, (t.unitResult true dir u).content?.isSome = !t.holds (dir.join ⟨u.hintName⟩) u.source := by
    intro u
    rw [unitResult]
    cases t.holds (dir.join ⟨u.hintName⟩) u.source <;> rfl
  have stale : ∀ paths : List Path, (paths.map (WriteResult.ofStale true)).filter (·.content?.isSome) =
      paths.map (.ofStale true) := by
    intro paths
    refine List.filter_eq_self.mpr fun result member => ?_
    obtain ⟨p,_,rfl⟩ := List.mem_map.mp member
    rfl
  rw [outOfDate,told,List.filter_append,stale,List.filter_map,List.map_append,List.map_map,List.map_map]
  have paths : WriteResult.path ∘ t.unitResult true dir = fun u => dir.join ⟨u.hintName⟩ :=
    funext fun u => WriteResult.path_ofText ..
  have gone : WriteResult.path ∘ WriteResult.ofStale true = id := rfl
  rw [paths,gone,List.map_id]
  congr 2
  exact List.filter_congr fun u _ => (changed u).symm

theorem holdsAt_congr {place : Place} {content : String} (same : t'.node? place = t.node? place) :
    t'.HoldsAt place content ↔ t.HoldsAt place content := by
  rw [HoldsAt,HoldsAt,same]

/-- What is written to one unit's place is not seen at another's. -/
theorem Wrote.unitResult_eq {u v : SourceUnit} {content : String} (wrote : Wrote t t' (u.place folder) content)
    (leads : t.Leads dir folder) (entry : IsEntry v.hintName.toList) (apart : v.hintName ≠ u.hintName) (dry : Bool) :
    t'.unitResult dry dir v = t.unitResult dry dir v := by
  have same : t'.holds (dir.join ⟨v.hintName⟩) v.source = t.holds (dir.join ⟨v.hintName⟩) v.source := by
    rw [Bool.eq_iff_iff,(leads.keep wrote.keeps).holds entry,leads.holds entry]
    exact holdsAt_congr (wrote.others _ fun same => apart (SourceUnit.place_inj.mp same))
  rw [unitResult,unitResult,same]

theorem Wrote.map_unitResult {u : SourceUnit} {content : String} (wrote : Wrote t t' (u.place folder) content)
    (leads : t.Leads dir folder) (entries : ∀ v ∈ units, IsEntry v.hintName.toList)
    (fresh : u.hintName ∉ units.map SourceUnit.hintName) :
    units.map (t'.unitResult false dir) = units.map (t.unitResult false dir) := by
  refine List.map_congr_left fun v member => ?_
  apply wrote.unitResult_eq leads (entries v member)
  exact fun same => fresh (same ▸ List.mem_map_of_mem member)

/-- Nothing that is written is looked at again. -/
theorem Leads.writeUnits_results (leads : t.Leads dir folder) (entries : ∀ u ∈ units, IsEntry u.hintName.toList)
    (distinct : (units.map SourceUnit.hintName).Nodup) {results : List WriteResult}
    (written : t.writeUnits false dir units = (t',.ok results)) : results = units.map (t.unitResult false dir) := by
  induction units generalizing t results with
  | nil =>
    cases written
    rfl
  | cons u units ih =>
    obtain ⟨t₁,result,rest,first,later⟩ := writeUnits_cons written
    rw [writeUnits_eq,first] at written
    simp only [later] at written
    obtain rfl : result :: rest = results := Except.ok.inj (Prod.mk.inj written).2
    have wrote := leads.wrote (entries u List.mem_cons_self) first
    have entries' := fun v member => entries v (List.mem_cons_of_mem u member)
    rw [List.map_cons,List.nodup_cons] at distinct
    rw [ih (leads.keep wrote.keeps) entries' distinct.2 later,writeText_result first,List.map_cons,
      wrote.map_unitResult leads entries' distinct.1,unitResult]

theorem nodup_filesIn (t : FileTree) (folder : Place) : (t.filesIn folder).Nodup := by
  have distinct := t.distinct
  rw [List.Nodup,List.pairwise_map] at distinct
  refine List.pairwise_filterMap.mpr (distinct.imp fun {e e'} apart => ?_)
  intro name found name' found' same
  obtain ⟨place,bytes | _⟩ := e
  · obtain ⟨place',bytes' | _⟩ := e'
    · simp only [Option.ite_none_right_eq_some] at found found'
      refine apart ?_
      rw [← List.dropLast_append_getLast? name found.2,← List.dropLast_append_getLast? name' found'.2,
        found.1,found'.1,same]
    · cases found'
  · cases found

theorem mem_staleNames (formed : t.WellFormed) {name : List Char} : name ∈ t.staleNames folder keep ↔
    isGenerated name = true ∧ String.ofList name ∉ keep ∧ ∃ bytes, t.node? (folder ++ [name]) = some (.file bytes) := by
  simp only [staleNames,List.mem_mergeSort,List.mem_filter,mem_filesIn formed,Bool.and_eq_true,
    Bool.not_eq_true',List.contains_eq_mem,decide_eq_false_iff_not]
  tauto

/-- The stale files of a folder are told by what is at their places. -/
theorem staleNames_congr (formed : t.WellFormed) (formed' : t'.WellFormed)
    (same : ∀ name, String.ofList name ∉ keep → t'.node? (folder ++ [name]) = t.node? (folder ++ [name])) :
    t'.staleNames folder keep = t.staleNames folder keep := by
  have members : ∀ name, name ∈ t'.staleNames folder keep ↔ name ∈ t.staleNames folder keep := by
    intro name
    rw [mem_staleNames formed,mem_staleNames formed']
    by_cases kept : String.ofList name ∈ keep
    · simp [kept]
    · rw [same name kept]
  have nodup : ∀ t : FileTree, (t.staleNames folder keep).Nodup := fun t =>
    (List.mergeSort_perm ..).nodup_iff.mpr ((t.nodup_filesIn folder).filter _)
  have sorted : ∀ t : FileTree, (t.staleNames folder keep).Pairwise (nameUpTo · · = true) := by
    intro t
    refine List.pairwise_mergeSort (fun a b c first second => ?_) (fun a b => ?_) _
    · rw [nameUpTo,Path.compareChars_eq] at *
      exact Std.TransCmp.isLE_trans first second
    · have swap : compare (b.map Char.toNat) (a.map Char.toNat) =
          (compare (a.map Char.toNat) (b.map Char.toNat)).swap := Std.OrientedCmp.eq_swap
      rw [nameUpTo,nameUpTo,Path.compareChars_eq,Path.compareChars_eq,swap]
      cases compare (a.map Char.toNat) (b.map Char.toNat) <;> rfl
  exact List.Perm.eq_of_pairwise (fun a b _ _ => eq_of_nameUpTo) (sorted t') (sorted t)
    ((List.perm_ext_iff_of_nodup (nodup t') (nodup t)).mpr members)

theorem Leads.staleFiles (leads : t.Leads dir folder) (keep : List String) : t.staleFiles dir keep =
    if dir.text.isEmpty then [] else (t.staleNames folder keep).map fun name => dir.join ⟨String.ofList name⟩ := by
  rw [FileTree.staleFiles,stale,leads.find]
  cases dir.text.isEmpty with
  | true => rfl
  | false => simp

/-- A write that succeeds looks at the first unit before the folder is made, and at all else behind that. -/
theorem writeOutput_results (formed : t.WellFormed) {u : SourceUnit} {rest : List SourceUnit}
    (entries : ∀ v ∈ u :: rest, IsEntry v.hintName.toList)
    (distinct : ((u :: rest).map SourceUnit.hintName).Nodup) {results : List WriteResult}
    (written : t.writeOutput false dir (u :: rest) = (t',.ok results)) :
    (∃ folder, (t.withFolder dir).Leads dir folder) ∧
      results = t.unitResult false dir u :: rest.map ((t.withFolder dir).unitResult false dir) ++
        ((t.withFolder dir).staleFiles dir ((u :: rest).map SourceUnit.hintName)).map (WriteResult.ofStale false) := by
  rw [writeOutput_eq] at written
  generalize done : t.writeUnits false dir (u :: rest) = outcome at written
  obtain ⟨t₁,fault | results⟩ := outcome
  · cases written
  simp only [Prod.mk.injEq,Except.ok.injEq] at written
  obtain ⟨_,rfl⟩ := written
  obtain ⟨folder,leads,filled⟩ := writeUnits_ok (List.cons_ne_nil u rest) entries distinct done
  refine ⟨⟨folder,leads⟩,?_⟩
  have stale : t₁.staleFiles dir ((u :: rest).map SourceUnit.hintName) =
      (t.withFolder dir).staleFiles dir ((u :: rest).map SourceUnit.hintName) := by
    have formed' : (t.withFolder dir).WellFormed := (prepare_adds t _).formed formed
    rw [(leads.keep filled.keeps).staleFiles,leads.staleFiles,
      staleNames_congr formed' (filled.formed formed') fun name dropped => filled.others _ fun v member same => ?_]
    have named : name = v.hintName.toList := by simpa [SourceUnit.place] using same
    rw [named,String.ofList_toList] at dropped
    exact dropped (List.mem_map_of_mem member)
  rw [prune_snd,stale]
  obtain ⟨t₂,result,more,first,later⟩ := writeUnits_cons done
  rw [writeUnits_eq,first] at done
  simp only [later] at done
  obtain rfl : result :: more = results := Except.ok.inj (Prod.mk.inj done).2
  obtain ⟨folder',leads',wrote⟩ := writeText_ok (entries u List.mem_cons_self) first
  obtain rfl := leads.unique leads'
  have entries' := fun v member => entries v (List.mem_cons_of_mem u member)
  rw [List.map_cons,List.nodup_cons] at distinct
  rw [(leads.keep wrote.keeps).writeUnits_results entries' distinct.2 later,writeText_result first,
    wrote.map_unitResult leads entries' distinct.1,unitResult]

theorem forall₂_append_iff {α β : Type} {R : α → β → Prop} {as bs : List α} {cs ds : List β}
    (same : as.length = cs.length) : List.Forall₂ R (as ++ bs) (cs ++ ds) ↔ List.Forall₂ R as cs ∧ List.Forall₂ R bs ds := by
  induction as generalizing cs with
  | nil => simp [List.length_eq_zero_iff.mp same.symm]
  | cons a as ih =>
    obtain ⟨c,cs,rfl⟩ := List.exists_cons_of_length_eq_add_one same.symm
    simp only [List.cons_append,List.forall₂_cons]
    rw [ih (by simpa using same),and_assoc]

/-- Results agree where the two trees show the same units and the same stale files. -/
theorem foretells_told_iff {u : SourceUnit} {rest : List SourceUnit} : List.Forall₂ WriteResult.Foretells
      (t.told dir (u :: rest)) (t.unitResult false dir u :: rest.map (t'.unitResult false dir) ++
        (t'.staleFiles dir ((u :: rest).map SourceUnit.hintName)).map (WriteResult.ofStale false)) ↔
    (∀ v ∈ rest, t.holds (dir.join ⟨v.hintName⟩) v.source = t'.holds (dir.join ⟨v.hintName⟩) v.source) ∧
      t.staleFiles dir ((u :: rest).map SourceUnit.hintName) =
        t'.staleFiles dir ((u :: rest).map SourceUnit.hintName) := by
  rw [told,forall₂_append_iff (by simp)]
  refine and_congr ?_ ?_
  · rw [List.map_cons,List.forall₂_cons,List.forall₂_map_left_iff,List.forall₂_map_right_iff,List.forall₂_same]
    have first : (t.unitResult true dir u).Foretells (t.unitResult false dir u) :=
      WriteResult.foretells_ofText_iff.mpr rfl
    rw [and_iff_right first]
    exact forall₂_congr fun v _ => WriteResult.foretells_ofText_iff
  · rw [List.forall₂_map_left_iff,List.forall₂_map_right_iff]
    simp only [WriteResult.foretells_ofStale_iff]
    rw [List.forall₂_eq_eq_eq]

/-- A folder holds a unit behind the first one already, or a file that is to go. -/
def Overlooks (t : FileTree) (folder : Place) (units : List SourceUnit) : Prop :=
  (∃ u ∈ units.tail, t.HoldsAt (u.place folder) u.source) ∨
    t.staleNames folder (units.map SourceUnit.hintName) ≠ []

/-- A path that is found nowhere holds no unit and leads to nothing stale. -/
theorem holds_of_lost (lost : ∀ folder, ¬ t.Leads dir folder) {u : SourceUnit} (entry : IsEntry u.hintName.toList) :
    t.holds (dir.join ⟨u.hintName⟩) u.source = false := by
  by_contra held
  obtain ⟨folder,leads⟩ := leads_of_holds entry (by simpa using held)
  exact lost folder leads

theorem staleFiles_of_lost (lost : ∀ folder, ¬ t.Leads dir folder) (keep : List String) : t.staleFiles dir keep = [] := by
  rw [staleFiles,stale]
  split
  · next found => exact absurd (leads_of_find found) (lost _)
  · rfl

theorem Leads.filled_of_lost (leads : t'.Leads dir folder) (lost : ¬ t.Leads dir folder) :
    dir.text.isEmpty = false := by
  rw [Bool.eq_false_iff]
  intro bare
  have follows := leads.follows
  rw [Path.stem,if_pos bare] at follows
  obtain rfl : [] = folder := Except.ok.inj follows
  exact lost ⟨leads.relative,by rw [Path.stem,if_pos bare]; rfl,rfl⟩

theorem Adds.file_iff (adds : Adds t t') {place : Place} {bytes : List UInt8} :
    t'.node? place = some (.file bytes) ↔ t.node? place = some (.file bytes) := by
  rcases adds.nodes place with same | ⟨absent,added⟩
  · rw [same]
  · simp [absent,added]

/-- Where a path was lost, making its folder brings nothing into sight unless something was overlooked. -/
theorem not_overlooks_iff (formed : t.WellFormed) {u : SourceUnit} {rest : List SourceUnit}
    (entries : ∀ v ∈ rest, IsEntry v.hintName.toList) (leads : (t.withFolder dir).Leads dir folder)
    (lost : ∀ other, ¬ t.Leads dir other) : ¬ t.Overlooks folder (u :: rest) ↔
      (∀ v ∈ rest, t.holds (dir.join ⟨v.hintName⟩) v.source = (t.withFolder dir).holds (dir.join ⟨v.hintName⟩) v.source) ∧
        t.staleFiles dir ((u :: rest).map SourceUnit.hintName) =
          (t.withFolder dir).staleFiles dir ((u :: rest).map SourceUnit.hintName) := by
  have adds : Adds t (t.withFolder dir) := prepare_adds ..
  have held : ∀ v ∈ rest, (t.holds (dir.join ⟨v.hintName⟩) v.source =
      (t.withFolder dir).holds (dir.join ⟨v.hintName⟩) v.source ↔ ¬ t.HoldsAt (v.place folder) v.source) := by
    intro v member
    have seen : t.HoldsAt (v.place folder) v.source ↔ (t.withFolder dir).HoldsAt (v.place folder) v.source := by
      simp only [HoldsAt,adds.file_iff]
    rw [holds_of_lost lost (entries v member),seen,SourceUnit.place,← leads.holds (entries v member),eq_comm,
      Bool.not_eq_true]
  have stale : ∀ keep, t.staleFiles dir keep = (t.withFolder dir).staleFiles dir keep ↔ t.staleNames folder keep = [] := by
    intro keep
    have filled := leads.filled_of_lost (lost folder)
    rw [staleFiles_of_lost lost,leads.staleFiles,filled,if_neg Bool.false_ne_true,eq_comm,List.map_eq_nil_iff]
    simp only [List.eq_nil_iff_forall_not_mem,mem_staleNames formed,mem_staleNames (adds.formed formed),adds.file_iff]
  rw [Overlooks,not_or,not_not,stale,List.tail_cons,not_exists]
  refine and_congr_left fun _ => forall_congr' fun v => ?_
  rw [not_and]
  exact forall_congr' fun member => (held v member).symm

/-- A dry run of units with distinct plain names leaves the tree as it is, and validation names what it would change.
It foretells a write that succeeds, unless the folder is not found as its path is written and, once the folders that
are missing have been made, turns out to be one that has been there and holds something to be left alone or
removed. -/
theorem writeOutput_foretold {done : List WriteResult} (formed : t.WellFormed)
    (entries : ∀ u ∈ units, IsEntry u.hintName.toList) (distinct : (units.map SourceUnit.hintName).Nodup)
    (written : t.writeOutput false dir units = (t',.ok done)) :
    ∃ told, t.writeOutput true dir units = (t,.ok told) ∧
      t.outOfDate dir units = (told.filter (·.content?.isSome)).map WriteResult.path ∧
      (List.Forall₂ WriteResult.Foretells told done ↔ ∀ folder, units ≠ [] → (t.withFolder dir).Leads dir folder →
        ¬ t.Leads dir folder → ¬ t.Overlooks folder units) := by
  refine ⟨_,writeOutput_dry t dir units,outOfDate_eq_told t dir units,?_⟩
  cases units with
  | nil =>
    rw [writeOutput_eq] at written
    obtain rfl : [] ++ (t.prune false dir []).2 = done := Except.ok.inj (Prod.mk.inj written).2
    refine iff_of_true ?_ fun _ nonempty => absurd rfl nonempty
    rw [told,prune_snd,List.map_nil,List.map_nil,List.nil_append,List.nil_append,List.forall₂_map_left_iff,
      List.forall₂_map_right_iff]
    exact List.forall₂_same.mpr fun p _ => WriteResult.foretells_ofStale_iff.mpr rfl
  | cons u rest =>
    obtain ⟨⟨folder,leads⟩,rfl⟩ := writeOutput_results formed entries distinct written
    rw [foretells_told_iff]
    by_cases found : t.Leads dir folder
    · rw [found.withFolder]
      refine iff_of_true ⟨fun _ _ => rfl,rfl⟩ fun other _ leads' missed => ?_
      exact absurd leads' missed
    · have lost : ∀ other, ¬ t.Leads dir other := by
        intro other leads'
        rw [leads'.withFolder] at leads
        exact found leads
      rw [← not_overlooks_iff formed (fun v member => entries v (List.mem_cons_of_mem u member)) leads lost]
      constructor
      · intro clear other _ leads' _
        rwa [leads'.unique leads]
      · intro clear
        exact clear folder (List.cons_ne_nil u rest) leads found

/-- A folder with a unit that is as it is to be, one that is not, a stale file and one of someone else. -/
def mixedTree : FileTree where
  nodes := [(["out".toList],.folder),(["out".toList,"a.g.rs".toList],.file [0x61]),
    (["out".toList,"b.g.rs".toList],.file [0x78]),(["out".toList,"old.g.rs".toList],.file []),
    (["out".toList,"notes.txt".toList],.file [])]
  distinct := by decide

def mixedUnits : List SourceUnit := [⟨"a.g.rs","a"⟩,⟨"b.g.rs","b"⟩,⟨"c.g.rs","c"⟩]

theorem writeOutput_foretold_mixedTree : mixedTree.WellFormed ∧
    (∀ u ∈ mixedUnits, IsEntry u.hintName.toList) ∧ (mixedUnits.map SourceUnit.hintName).Nodup ∧
    ∃ t' done told, mixedTree.writeOutput false ⟨"out"⟩ mixedUnits = (t',.ok done) ∧
      mixedTree.writeOutput true ⟨"out"⟩ mixedUnits = (mixedTree,.ok told) ∧
      mixedTree.outOfDate ⟨"out"⟩ mixedUnits = (told.filter (·.content?.isSome)).map WriteResult.path ∧
      List.Forall₂ WriteResult.Foretells told done := by
  have formed : mixedTree.WellFormed := by constructor <;> decide
  have named : ∀ u ∈ mixedUnits, UnitName u.hintName := by
    intro u member
    simp only [mixedUnits,List.mem_cons,List.not_mem_nil,or_false] at member
    rcases member with rfl | rfl | rfl <;> constructor <;> decide
  have entries : ∀ u ∈ mixedUnits, IsEntry u.hintName.toList := fun u member => (named u member).entry
  have distinct : (mixedUnits.map SourceUnit.hintName).Nodup := by decide
  have leads : mixedTree.Leads ⟨"out"⟩ ["out".toList] := ⟨by decide,rfl,rfl⟩
  have free : ∀ u ∈ mixedUnits, mixedTree.node? (u.place ["out".toList]) ≠ some .folder := by decide
  obtain ⟨t',done,written⟩ := leads.writeOutput named free
  obtain ⟨told,dry,outdated,agrees⟩ := writeOutput_foretold formed entries distinct written
  refine ⟨formed,entries,distinct,t',done,told,written,dry,outdated,agrees.mpr ?_⟩
  intro folder _ leads' missed
  rw [leads.withFolder] at leads'
  exact absurd leads' missed

/-- A path through a folder that is missing, and back to where a generated file has been all along. -/
def strayTree : FileTree := ⟨[(["old.g.rs".toList],.file [0x78])],by decide⟩

def strayUnits : List SourceUnit := [⟨"a.g.rs","a"⟩]

/-- The tree once the unit is written, before anything is removed. -/
def strayWritten : FileTree :=
  ⟨[(["a.g.rs".toList],.file [0x61]),(["new".toList],.folder),(["old.g.rs".toList],.file [0x78])],by decide⟩

/-- The dry run does not name the file that the write removes. -/
theorem writeOutput_not_foretold : strayTree.WellFormed ∧ (∀ u ∈ strayUnits, IsEntry u.hintName.toList) ∧
    (strayUnits.map SourceUnit.hintName).Nodup ∧
    ∃ t' done told, strayTree.writeOutput false ⟨"new/.."⟩ strayUnits = (t',.ok done) ∧
      strayTree.writeOutput true ⟨"new/.."⟩ strayUnits = (strayTree,.ok told) ∧
      done = [.written ⟨"new/../a.g.rs"⟩ 1,.removed ⟨"new/../old.g.rs"⟩] ∧
      told = [.dryRun ⟨"new/../a.g.rs"⟩ "a"] ∧ ¬ List.Forall₂ WriteResult.Foretells told done := by
  have filled : strayTree.writeUnits false ⟨"new/.."⟩ strayUnits =
      (strayWritten,.ok [.written ⟨"new/../a.g.rs"⟩ 1]) := rfl
  have stale : strayWritten.staleFiles ⟨"new/.."⟩ ["a.g.rs"] = [⟨"new/../old.g.rs"⟩] := by decide +kernel
  have told : strayTree.told ⟨"new/.."⟩ strayUnits = [.dryRun ⟨"new/../a.g.rs"⟩ "a"] := rfl
  have written : strayTree.writeOutput false ⟨"new/.."⟩ strayUnits =
      ((strayWritten.prune false ⟨"new/.."⟩ ["a.g.rs"]).1,
        .ok [.written ⟨"new/../a.g.rs"⟩ 1,.removed ⟨"new/../old.g.rs"⟩]) := by
    have kept : strayUnits.map SourceUnit.hintName = ["a.g.rs"] := rfl
    rw [writeOutput_eq,filled,kept]
    simp only [prune_snd,stale]
    rfl
  refine ⟨by constructor <;> decide,?_,by decide,_,_,_,written,writeOutput_dry .., rfl,told,?_⟩
  · intro u member
    obtain rfl := List.mem_singleton.mp member
    constructor <;> decide
  · rw [told]
    intro agrees
    exact absurd agrees.length_eq (by decide)

end FileTree
end InlineIcons
