import InlineIcons.Proofs.FileTree.DryRun

/-! What writing leaves, everywhere in the tree. A write that ends well has put every unit in its place and removed the
generated files of no unit, unless the folder is written as the empty path: units are then put in the working directory
and nothing is removed from it. One that a unit stops has removed nothing. -/
namespace InlineIcons.FileTree

variable {t t' : FileTree} {dir : Path} {folder place : Place} {units : List SourceUnit} {gone : List Char → Prop}

/-- The same file is at a place of both trees, or a file at none of them. -/
def SameFile (t t' : FileTree) (place : Place) : Prop :=
  ∀ bytes, t'.node? place = some (.file bytes) ↔ t.node? place = some (.file bytes)

/-- All generated files directly in a folder are those of units. -/
def HoldsNoOther (t : FileTree) (folder : Place) (units : List SourceUnit) : Prop :=
  ∀ name bytes, isGenerated name = true → t.node? (folder ++ [name]) = some (.file bytes) →
    String.ofList name ∈ units.map SourceUnit.hintName

/-- Units are written into the folder of a path. Beside their files only such as may be gone from that folder have
changed in the tree. -/
structure Leaves (t t' : FileTree) (dir : Path) (units : List SourceUnit) (gone : List Char → Prop) : Prop where
  held : ∀ u ∈ units, t'.holds (dir.join ⟨u.hintName⟩) u.source = true
  stands : units ≠ [] → ∃ folder, t'.Leads dir folder
  others : ∀ place, (∀ folder, t'.Leads dir folder → ∀ name, place = folder ++ [name] →
    String.ofList name ∉ units.map SourceUnit.hintName ∧ ¬ gone name) → SameFile t t' place

/-- Folders that are added change no file, and take no path away. -/
theorem Leaves.adds {t₁ : FileTree} (leaves : Leaves t t₁ dir units gone) (adds : Adds t₁ t')
    (entries : ∀ u ∈ units, IsEntry u.hintName.toList) : Leaves t t' dir units gone := by
  refine ⟨fun u member => ?_,fun filled => ?_,fun place apart bytes => ?_⟩
  · obtain ⟨folder,leads⟩ := leads_of_holds (entries u member) (leaves.held u member)
    obtain ⟨bytes,file,text⟩ := (leads.holds (entries u member)).mp (leaves.held u member)
    exact ((leads.keep adds.keeps).holds (entries u member)).mpr ⟨bytes,adds.file_iff.mpr file,text⟩
  · obtain ⟨folder,leads⟩ := leaves.stands filled
    exact ⟨folder,leads.keep adds.keeps⟩
  · rw [adds.file_iff]
    exact leaves.others place (fun folder leads => apart folder (leads.keep adds.keeps)) bytes

theorem writeUnits_leaves (entries : ∀ u ∈ units, IsEntry u.hintName.toList)
    (distinct : (units.map SourceUnit.hintName).Nodup) {results : List WriteResult}
    (written : t.writeUnits false dir units = (t',.ok results)) :
    Leaves t t' dir units (fun _ => False) ∧ (t.WellFormed → t'.WellFormed) := by
  cases units with
  | nil =>
    cases written
    exact ⟨⟨nofun,absurd rfl,fun _ _ _ => Iff.rfl⟩,id⟩
  | cons u rest =>
    obtain ⟨folder,leads,filled⟩ := writeUnits_ok (List.cons_ne_nil u rest) entries distinct written
    have adds : Adds t (t.withFolder dir) := prepare_adds ..
    have leads' := leads.keep filled.keeps
    refine ⟨⟨fun v member => ?_,fun _ => ⟨folder,leads'⟩,fun place apart bytes => ?_⟩,
      fun formed => filled.formed (adds.formed formed)⟩
    · exact (leads'.holds (entries v member)).mpr (filled.held v member)
    · have other : ∀ v ∈ u :: rest, place ≠ v.place folder := by
        rintro v member rfl
        refine (apart folder leads' _ rfl).1 ?_
        rw [String.ofList_toList]
        exact List.mem_map_of_mem member
      rw [filled.others place other,adds.file_iff]

/-- Where every file beside those of units stays, no file is gone. -/
theorem Leaves.exists_file (leaves : Leaves t t' dir units (fun _ => False))
    (entries : ∀ u ∈ units, IsEntry u.hintName.toList) {bytes : List UInt8}
    (file : t.node? place = some (.file bytes)) : ∃ bytes', t'.node? place = some (.file bytes') := by
  by_cases other : ∀ folder, t'.Leads dir folder → ∀ name, place = folder ++ [name] →
      String.ofList name ∉ units.map SourceUnit.hintName
  · exact ⟨bytes,(leaves.others place (fun folder leads name same => ⟨other folder leads name same,id⟩) bytes).mpr file⟩
  · simp only [not_forall,not_not] at other
    obtain ⟨folder,leads,name,rfl,member⟩ := other
    obtain ⟨u,inside,named⟩ := List.mem_map.mp member
    obtain ⟨bytes',file',_⟩ := (leads.holds (entries u inside)).mp (leaves.held u inside)
    rw [named,String.toList_ofList] at file'
    exact ⟨bytes',file'⟩

/-- A write that fails has made folders at most. -/
theorem writeText_error {p : Path} {content : String} {e : WriteError}
    (failed : t.writeText false p content = (t',.error e)) : Adds t t' := by
  have adds := prepare_adds t p
  rw [writeText] at failed
  split at failed
  · cases failed
  simp only [Bool.false_eq_true,if_false] at failed
  generalize t.prepare p = prepared at failed adds
  obtain ⟨made,fault | _⟩ := prepared
  · cases failed
    exact adds
  · simp only at failed
    cases put : made.write p (Text.utf8 content) with
    | ok t₁ =>
      rw [put] at failed
      cases failed
    | error fault =>
      rw [put] at failed
      cases failed
      exact adds

/-- Units that cannot all be written are written up to the first one that cannot. -/
theorem writeUnits_error {e : WriteError} (failed : t.writeUnits false dir units = (t',.error e)) :
    ∃ before u after t₁ results, units = before ++ u :: after ∧ t.writeUnits false dir before = (t₁,.ok results) ∧
      t₁.writeText false (dir.join ⟨u.hintName⟩) u.source = (t',.error e) := by
  induction units generalizing t with
  | nil => cases failed
  | cons u rest ih =>
    rw [writeUnits_eq] at failed
    cases first : t.writeText false (dir.join ⟨u.hintName⟩) u.source with
    | mk t₁ outcome =>
      rw [first] at failed
      cases outcome with
      | error fault =>
        cases failed
        exact ⟨[],u,rest,t,[],rfl,rfl,first⟩
      | ok result =>
        simp only at failed
        cases later : t₁.writeUnits false dir rest with
        | mk t₂ outcome =>
          rw [later] at failed
          cases outcome with
          | ok results => cases failed
          | error fault =>
            cases failed
            obtain ⟨before,v,after,t₃,results,rfl,written,stopped⟩ := ih later
            refine ⟨u :: before,v,after,t₃,result :: results,rfl,?_,stopped⟩
            rw [writeUnits_eq,first]
            simp only [written]

/-- Where the folder of a path stands, pruning removes the generated files of no unit, and nothing at all if the path is
empty. -/
theorem Leads.file_prune_iff (leads : t.Leads dir folder) (formed : t.WellFormed) {keep : List String}
    {bytes : List UInt8} : (t.prune false dir keep).1.node? place = some (.file bytes) ↔
      t.node? place = some (.file bytes) ∧ (dir.text = "" ∨
        ∀ name, place = folder ++ [name] → isGenerated name = true → String.ofList name ∈ keep) := by
  rw [node?_prune leads formed]
  by_cases stale : place ∈ (t.stale dir keep).map Prod.snd
  · rw [if_pos stale]
    obtain ⟨filled,name,same,marked,dropped,_⟩ := (leads.mem_stale formed).mp stale
    refine iff_of_false nofun ?_
    rintro ⟨_,bare | kept⟩
    · simp [bare] at filled
    · exact dropped (kept name same marked)
  · rw [if_neg stale]
    refine (and_iff_left_of_imp fun file => ?_).symm
    rw [leads.mem_stale formed] at stale
    by_cases bare : dir.text = ""
    · exact .inl bare
    · refine .inr fun name same marked => ?_
      by_contra dropped
      exact stale ⟨by simpa using bare,name,same,marked,dropped,bytes,file⟩

theorem prune_of_lost (lost : ∀ folder, ¬ t.Leads dir folder) (keep : List String) : (t.prune false dir keep).1 = t := by
  have none : t.stale dir keep = [] := by
    rw [stale]
    split
    · next found => exact absurd (leads_of_find found) (lost _)
    · rfl
  rw [prune_fst,none]
  rfl

section Pruned

variable {t₁ : FileTree} (leaves : Leaves t t₁ dir units (fun _ => False)) (leads : t₁.Leads dir folder)
  (formed : t₁.WellFormed)

include leads formed in
theorem Leads.prune (keep : List String) : (t₁.prune false dir keep).1.Leads dir folder :=
  leads.keep (prune_wellFormed leads formed keep).2

include leaves leads in
/-- A file of the folder that is not a unit's is as it was before the units were written. -/
theorem Leaves.sameFile_of_dropped {name : List Char} (dropped : String.ofList name ∉ units.map SourceUnit.hintName) :
    SameFile t t₁ (folder ++ [name]) := by
  refine leaves.others _ fun folder' leads' name' same => ⟨?_,id⟩
  obtain rfl := leads'.unique leads
  obtain rfl : name = name' := by simpa using same
  exact dropped

include leaves leads formed in
theorem Leaves.held_prune (entries : ∀ u ∈ units, IsEntry u.hintName.toList) {u : SourceUnit} (member : u ∈ units) :
    (t₁.prune false dir (units.map SourceUnit.hintName)).1.holds (dir.join ⟨u.hintName⟩) u.source = true := by
  obtain ⟨bytes,file,text⟩ := (leads.holds (entries u member)).mp (leaves.held u member)
  refine ((leads.prune formed _).holds (entries u member)).mpr ⟨bytes,(leads.file_prune_iff formed).mpr ⟨file,.inr ?_⟩,text⟩
  intro name same _
  obtain rfl : u.hintName.toList = name := by simpa using same
  rw [String.ofList_toList]
  exact List.mem_map_of_mem member

include leaves leads formed in
theorem Leaves.others_prune (apart : ∀ name, place = folder ++ [name] →
      String.ofList name ∉ units.map SourceUnit.hintName ∧ ¬ (dir.text ≠ "" ∧ isGenerated name = true)) :
    SameFile t (t₁.prune false dir (units.map SourceUnit.hintName)).1 place := by
  intro bytes
  have same : SameFile t t₁ place := by
    refine leaves.others place fun folder' leads' name here => ⟨?_,id⟩
    obtain rfl := leads'.unique leads
    exact (apart name here).1
  rw [leads.file_prune_iff formed,same bytes]
  refine and_iff_left_of_imp fun _ => or_iff_not_imp_left.mpr fun filled name here marked => ?_
  exact absurd ⟨filled,marked⟩ (apart name here).2

include leaves leads formed in
/-- Generated files of no unit are left only where nothing is pruned, and then just those that were there. -/
theorem Leaves.holdsNoOther_prune_iff :
    (t₁.prune false dir (units.map SourceUnit.hintName)).1.HoldsNoOther folder units ↔
      (dir.text = "" → t.HoldsNoOther folder units) := by
  simp only [HoldsNoOther,leads.file_prune_iff formed]
  constructor
  · intro clean bare name bytes marked file
    by_contra dropped
    have before := leaves.sameFile_of_dropped leads dropped bytes
    exact dropped (clean name bytes marked ⟨before.mpr file,.inl bare⟩)
  · rintro clean name bytes marked ⟨file,bare | kept⟩
    · by_contra dropped
      have before := leaves.sameFile_of_dropped leads dropped bytes
      exact dropped (clean bare name bytes marked (before.mp file))
    · exact kept name rfl marked

end Pruned

theorem Leaves.prune {t₁ : FileTree} (leaves : Leaves t t₁ dir units (fun _ => False)) (formed : t₁.WellFormed)
    (entries : ∀ u ∈ units, IsEntry u.hintName.toList)
    (pruned : (t₁.prune false dir (units.map SourceUnit.hintName)).1 = t') :
    Leaves t t' dir units (fun name => dir.text ≠ "" ∧ isGenerated name = true) ∧
      ∀ folder, t'.Leads dir folder →
        (t'.HoldsNoOther folder units ↔ (dir.text = "" → t.HoldsNoOther folder units)) := by
  subst pruned
  by_cases found : ∃ folder, t₁.Leads dir folder
  · obtain ⟨folder,leads⟩ := found
    have leads' := leads.prune formed (units.map SourceUnit.hintName)
    refine ⟨⟨fun u member => leaves.held_prune leads formed entries member,fun _ => ⟨folder,leads'⟩,
      fun place apart => leaves.others_prune leads formed (apart folder leads')⟩,fun folder' leads'' => ?_⟩
    obtain rfl := leads''.unique leads'
    exact leaves.holdsNoOther_prune_iff leads formed
  · simp only [not_exists] at found
    rw [prune_of_lost found]
    refine ⟨⟨leaves.held,leaves.stands,fun place _ => ?_⟩,fun folder leads => absurd leads (found folder)⟩
    exact leaves.others place fun folder leads => absurd leads (found folder)

/-- A write that ends well leaves every unit in its file, and of all other files it takes away at most the generated ones
directly in the folder. No other generated file is left there, unless the folder is written as the empty path: then all
of them stay. A write that fails has stopped at a unit. The units before it are in their files, no file is gone, and all
files beside those of the units before it are as they were. -/
theorem writeOutput_leaves (formed : t.WellFormed) (entries : ∀ u ∈ units, IsEntry u.hintName.toList)
    (distinct : (units.map SourceUnit.hintName).Nodup) :
    (∀ t' results, t.writeOutput false dir units = (t',.ok results) →
      Leaves t t' dir units (fun name => dir.text ≠ "" ∧ isGenerated name = true) ∧
        ∀ folder, t'.Leads dir folder →
          (t'.HoldsNoOther folder units ↔ (dir.text = "" → t.HoldsNoOther folder units))) ∧
    ∀ t' e, t.writeOutput false dir units = (t',.error e) →
      ∃ before u after t₁ results, units = before ++ u :: after ∧ t.writeUnits false dir before = (t₁,.ok results) ∧
        t₁.writeText false (dir.join ⟨u.hintName⟩) u.source = (t',.error e) ∧
        Leaves t t' dir before (fun _ => False) ∧
        ∀ place bytes, t.node? place = some (.file bytes) → ∃ bytes', t'.node? place = some (.file bytes') := by
  constructor
  · intro t' results written
    rw [writeOutput_eq] at written
    cases done : t.writeUnits false dir units with
    | mk t₁ outcome =>
      rw [done] at written
      cases outcome with
      | error fault => cases written
      | ok results' =>
        obtain ⟨leaves,formed'⟩ := writeUnits_leaves entries distinct done
        exact leaves.prune (formed' formed) entries (congrArg Prod.fst written)
  · intro t' e failed
    rw [writeOutput_eq] at failed
    cases done : t.writeUnits false dir units with
    | mk t₁ outcome =>
      rw [done] at failed
      cases outcome with
      | ok results => cases failed
      | error fault =>
        cases failed
        obtain ⟨before,u,after,t₂,results,rfl,written,stopped⟩ := writeUnits_error done
        have entries' : ∀ v ∈ before, IsEntry v.hintName.toList :=
          fun v member => entries v (List.mem_append_left _ member)
        have distinct' : (before.map SourceUnit.hintName).Nodup := by
          rw [List.map_append] at distinct
          exact (List.nodup_append.mp distinct).1
        have leaves := (writeUnits_leaves entries' distinct' written).1.adds (writeText_error stopped) entries'
        exact ⟨before,u,after,t₂,results,rfl,written,stopped,leaves,
          fun place bytes file => leaves.exists_file entries' file⟩

def blockedTree : FileTree where
  nodes := [(["out".toList],.folder),(["out".toList,"b.g.rs".toList],.folder),
    (["out".toList,"old.g.rs".toList],.file [0x78])]
  distinct := by decide

/-- A unit written to the empty path, beside a generated file that stays; and units of which the second one finds a
folder in its place. -/
theorem writeOutput_leaves_stray :
    (strayTree.WellFormed ∧ (∀ u ∈ strayUnits, IsEntry u.hintName.toList) ∧
      (strayUnits.map SourceUnit.hintName).Nodup ∧ ∃ t' results,
        strayTree.writeOutput false ⟨""⟩ strayUnits = (t',.ok results) ∧ Leaves strayTree t' ⟨""⟩ strayUnits
          (fun name => (⟨""⟩ : Path).text ≠ "" ∧ isGenerated name = true) ∧ t'.Leads ⟨""⟩ [] ∧
          ¬ t'.HoldsNoOther [] strayUnits) ∧
    (blockedTree.WellFormed ∧ (∀ u ∈ mixedUnits, IsEntry u.hintName.toList) ∧
      (mixedUnits.map SourceUnit.hintName).Nodup ∧ ∃ t' e before u after,
        blockedTree.writeOutput false ⟨"out"⟩ mixedUnits = (t',.error e) ∧ mixedUnits = before ++ u :: after ∧
        Leaves blockedTree t' ⟨"out"⟩ before (fun _ => False) ∧
        ∃ bytes, t'.node? ["out".toList,"old.g.rs".toList] = some (.file bytes)) := by
  constructor
  · have formed : strayTree.WellFormed := by constructor <;> decide
    have named : ∀ u ∈ strayUnits, UnitName u.hintName := by
      intro u member
      obtain rfl := List.mem_singleton.mp member
      constructor <;> decide
    have entries : ∀ u ∈ strayUnits, IsEntry u.hintName.toList := fun u member => (named u member).entry
    have distinct : (strayUnits.map SourceUnit.hintName).Nodup := by decide
    have leads : strayTree.Leads ⟨""⟩ [] := ⟨by decide,rfl,rfl⟩
    obtain ⟨t',results,written⟩ := leads.writeOutput named (by decide)
    obtain ⟨leaves,pruned⟩ := (writeOutput_leaves formed entries distinct).1 t' results written
    obtain ⟨folder,leads'⟩ := leaves.stands (by decide)
    obtain rfl : [] = folder := Except.ok.inj leads'.follows
    have stray : ¬ strayTree.HoldsNoOther [] strayUnits :=
      fun clean => absurd (clean "old.g.rs".toList [0x78] (by decide) rfl) (by decide)
    exact ⟨formed,entries,distinct,t',results,written,leaves,leads',fun clean => stray ((pruned [] leads').mp clean rfl)⟩
  · have formed : blockedTree.WellFormed := by constructor <;> decide
    have named : ∀ u ∈ mixedUnits, UnitName u.hintName := by
      intro u member
      simp only [mixedUnits,List.mem_cons,List.not_mem_nil,or_false] at member
      rcases member with rfl | rfl | rfl <;> constructor <;> decide
    have entries : ∀ u ∈ mixedUnits, IsEntry u.hintName.toList := fun u member => (named u member).entry
    have distinct : (mixedUnits.map SourceUnit.hintName).Nodup := by decide
    have stopped : blockedTree.writeOutput false ⟨"out"⟩ mixedUnits =
        (_,.error (.writeFile ⟨"out/b.g.rs"⟩ .isFolder)) := rfl
    obtain ⟨before,u,after,_,_,split,_,_,leaves,stay⟩ := (writeOutput_leaves formed entries distinct).2 _ _ stopped
    exact ⟨formed,entries,distinct,_,_,before,u,after,stopped,split,leaves,stay _ [0x78] rfl⟩

end InlineIcons.FileTree
