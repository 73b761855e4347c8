import InlineIcons.Proofs.Scan

/-! What a scan finds in a tree with one more file. A file that it takes comes in at its place in the order, or ends the
scan if it is no text; a file that it does not take changes nothing. -/
namespace InlineIcons

section MapM

variable {α β ε : Type} {f f' : α → Except ε β} {l first rest : List α} {a : α} {ys : List β}

theorem mapM_congr (same : ∀ a ∈ l, f' a = f a) : l.mapM f' = l.mapM f := by
  induction l with
  | nil => rfl
  | cons a l ih =>
    rw [List.mapM_cons,List.mapM_cons,same a List.mem_cons_self,ih fun b member => same b (List.mem_cons_of_mem a member)]

theorem mapM_append_ok (done : (first ++ rest).mapM f = .ok ys) : ∃ before after,
    first.mapM f = .ok before ∧ rest.mapM f = .ok after ∧ ys = before ++ after := by
  rw [List.mapM_append] at done
  cases head : first.mapM f with
  | error e => simp [head,bind,Except.bind] at done
  | ok before =>
    cases tail : rest.mapM f with
    | error e => simp [head,tail,bind,Except.bind] at done
    | ok after =>
      simp only [head,tail,bind,Except.bind,pure,Except.pure,Except.ok.injEq] at done
      exact ⟨before,after,rfl,rfl,done.symm⟩

theorem exists_of_mem_mapM (done : l.mapM f = .ok ys) {y : β} (member : y ∈ ys) : ∃ a ∈ l, f a = .ok y := by
  induction l generalizing ys with
  | nil =>
    cases done
    simp at member
  | cons a l ih =>
    rw [List.mapM_cons] at done
    cases head : f a with
    | error e => simp [head,bind,Except.bind] at done
    | ok z =>
      cases tail : l.mapM f with
      | error e => simp [head,tail,bind,Except.bind] at done
      | ok zs =>
        simp only [head,tail,bind,Except.bind,pure,Except.pure,Except.ok.injEq] at done
        subst done
        rcases List.mem_cons.mp member with rfl | member
        · exact ⟨a,List.mem_cons_self,head⟩
        · obtain ⟨b,inside,read⟩ := ih tail member
          exact ⟨b,List.mem_cons_of_mem a inside,read⟩

/-- One more element on the way gives its own result or its own error. -/
theorem mapM_insert (done : (first ++ rest).mapM f = .ok ys) (same : ∀ b ∈ first ++ rest, f' b = f b) (a : α) :
    ∃ before after, ys = before ++ after ∧
      (first ++ a :: rest).mapM f' = (f' a).map fun y => before ++ y :: after := by
  obtain ⟨before,after,head,tail,split⟩ := mapM_append_ok done
  refine ⟨before,after,split,?_⟩
  rw [← mapM_congr fun b member => same b (List.mem_append_left rest member)] at head
  rw [← mapM_congr fun b member => same b (List.mem_append_right first member)] at tail
  rw [List.mapM_append,List.mapM_cons,head,tail]
  cases f' a <;> rfl

end MapM

namespace FileTree

variable {t t' : FileTree} {folder : Place} {name : List Char} {bytes : List UInt8}

/-- A tree with one more file, in a folder that stands. -/
structure Gains (t t' : FileTree) (folder : Place) (name : List Char) (bytes : List UInt8) : Prop where
  stands : t.node? folder = some .folder
  entry : IsEntry name
  fresh : t.node? (folder ++ [name]) = none
  put : t' = t.put (folder ++ [name]) (.file bytes)

variable (gains : Gains t t' folder name bytes)

include gains

theorem Gains.node?_self : t'.node? (folder ++ [name]) = some (.file bytes) := by
  rw [gains.put,node?_put_self _ _ (by simp)]

theorem Gains.node?_of_ne {place : Place} (other : place ≠ folder ++ [name]) : t'.node? place = t.node? place := by
  rw [gains.put,node?_put_of_ne _ _ other]

theorem Gains.node?_of_some {place : Place} {node : FileNode} (found : t.node? place = some node) :
    t'.node? place = some node := by
  rw [gains.node?_of_ne fun same => by simp [same,gains.fresh] at found,found]

theorem Gains.formed (formed : t.WellFormed) : t'.WellFormed := by
  rw [gains.put]
  exact formed.put gains.entry gains.stands fun found => by simp [gains.fresh] at found

theorem Gains.rules (plain : name ∉ ruleNames) : RulesAlike t t' := by
  intro place differ
  by_cases same : place = folder ++ [name]
  · subst same
    refine ⟨fun above rule member same => plain ?_,by simp [gains.fresh],by simp [gains.node?_self]⟩
    obtain rfl : name = rule := by simpa using congrArg List.getLast? same
    exact member
  · exact absurd (gains.node?_of_ne same).symm differ

theorem Gains.root_stands (formed : t.WellFormed) {root below : Place} {node : FileNode} (found : t.node? root = some node)
    (split : folder ++ [name] = root ++ below) : below ≠ [] ∧ t.node? root = some .folder := by
  have filled : below ≠ [] := by
    rintro rfl
    rw [List.append_nil] at split
    simp [← split,gains.fresh] at found
  refine ⟨filled,?_⟩
  have inside := gains.node?_self
  rw [split] at inside
  have stands := stands_above (gains.formed formed) inside filled
  rw [gains.node?_of_some found] at stands
  exact found.trans stands

end FileTree

namespace Scan

open FileTree

variable {s : Scan} {t t' : FileTree} {folder root below : Place} {name : List Char} {bytes : List UInt8}
  {files : List TextFile}

def Takes (s : Scan) (t : FileTree) (place : Place) : Prop := ∃ root below, t.reach s.root = .ok root ∧
  place = root ++ below ∧ t.counts s.git root below = true ∧ s.accepts below = true

/-- Places below a folder are told apart by their paths. -/
theorem components_pathOf_inj (s : Scan) {below below' : Place} (filled : below ≠ []) (filled' : below' ≠ [])
    (entries : ∀ n ∈ below, IsEntry n) (entries' : ∀ n ∈ below', IsEntry n)
    (same : (s.pathOf below).components = (s.pathOf below').components) : below = below' := by
  obtain ⟨head,components⟩ := Path.components_join s.root
  rw [pathOf,pathOf,if_neg filled,if_neg filled',components _ filled entries,components _ filled' entries'] at same
  exact List.map_injective_iff.mpr (fun _ _ => Path.Component.name.inj) (List.append_cancel_left same)

theorem mergeSort_insert {places places' : List Place} (perm : places'.Perm (below :: places))
    (entries : ∀ p ∈ places', ∀ n ∈ p, IsEntry n) : ∃ first rest,
      places.mergeSort precedes = first ++ rest ∧ places'.mergeSort precedes = first ++ below :: rest := by
  have member : below ∈ places'.mergeSort precedes :=
    List.mem_mergeSort.mpr (perm.mem_iff.mpr List.mem_cons_self)
  obtain ⟨first,rest,split⟩ := List.append_of_mem member
  refine ⟨first,rest,?_,split⟩
  have sorted := List.pairwise_mergeSort precedes_trans precedes_total places'
  rw [split] at sorted
  have others : (first ++ rest).Perm places := by
    have whole : (first ++ below :: rest).Perm (below :: places) := split ▸ (List.mergeSort_perm places' precedes).trans perm
    exact (List.perm_middle.symm.trans whole).cons_inv
  rw [← mergeSort_perm others fun p inside => entries p (perm.mem_iff.mpr (List.mem_cons_of_mem below (others.mem_iff.mp inside)))]
  exact List.mergeSort_of_pairwise (sorted.sublist ((List.sublist_cons_self below rest).append_left first))

section Gains

variable (gains : Gains t t' folder name bytes) (plain : name ∉ ruleNames) (formed : t.WellFormed)
  (found : s.filesOrNone t = .ok files)

include gains plain found in
/-- A root stays what it is, so all depends on the files below it. -/
theorem filesOrNone_gains : ∃ root node, t.reach s.root = .ok root ∧ t.node? root = some node ∧
    s.readChosen t root = .ok files ∧ s.filesOrNone t' = s.readChosen t' root := by
  obtain ⟨root,node,reached,held,rules,read⟩ := root_of_filesOrNone found
  refine ⟨root,node,reached,held,read,?_⟩
  have alike := gains.rules plain
  rw [filesOrNone_eq (alike.reach_ok.mp reached),gains.node?_of_some held]
  cases node with
  | file bytes => rfl
  | folder => simp only [← alike.ruleFaultsAbove,rules rfl]

include gains plain formed in
theorem mem_chosen_gains {b : Place} : b ∈ s.chosen t' root ↔ b ∈ s.chosen t root ∨
    folder ++ [name] = root ++ b ∧ t.counts s.git root b = true ∧ s.accepts b = true := by
  rw [mem_chosen (gains.formed formed),mem_chosen formed,← (gains.rules plain).counts]
  by_cases here : root ++ b = folder ++ [name]
  · simp [here,gains.node?_self,gains.fresh]
  · simp [gains.node?_of_ne here,Ne.symm here]

include gains formed in
theorem readBelow_gains {b : Place} (member : b ∈ s.chosen t root) : s.readBelow t' root b = s.readBelow t root b := by
  obtain ⟨⟨bytes,file⟩,_⟩ := (mem_chosen formed).mp member
  exact readBelow_congr ((gains.node?_of_some file).trans file.symm)

include gains in
theorem readBelow_self (split : folder ++ [name] = root ++ below) : s.readBelow t' root below =
    match Text.ofUtf8? bytes with
    | some text => .ok ⟨s.pathOf below,⟨Place.text below⟩,text⟩
    | none => .error (.unreadable (s.pathOf below) .notText) := by
  cases decoded : Text.ofUtf8? bytes <;> simp [readBelow,← split,gains.node?_self,decoded]

include gains plain formed found in
/-- A file that is not taken changes nothing. -/
theorem filesOrNone_of_not_takes (left : ¬s.Takes t (folder ++ [name])) : s.filesOrNone t' = .ok files := by
  obtain ⟨root,node,reached,held,read,found'⟩ := filesOrNone_gains gains plain found
  have perm : (s.chosen t' root).Perm (s.chosen t root) := by
    refine (List.perm_ext_iff_of_nodup (nodup_chosen s t' root) (nodup_chosen s t root)).mpr fun b => ?_
    rw [mem_chosen_gains gains plain formed]
    exact or_iff_left fun taken => left ⟨root,b,reached,taken⟩
  rw [found',← read,readChosen,readChosen,mergeSort_perm perm (entries_of_mem_chosen (gains.formed formed))]
  exact mapM_congr fun b member => readBelow_gains gains formed (List.mem_mergeSort.mp member)

include gains formed in
theorem not_mem_chosen (split : folder ++ [name] = root ++ below) : below ∉ s.chosen t root := by
  intro member
  obtain ⟨⟨bytes,file⟩,_⟩ := (mem_chosen formed).mp member
  rw [← split,gains.fresh] at file
  cases file

include gains plain formed in
/-- The new file is chosen beside those that were chosen before. -/
theorem chosen_gains (split : folder ++ [name] = root ++ below)
    (accepted : t.counts s.git root below = true ∧ s.accepts below = true) :
    (s.chosen t' root).Perm (below :: s.chosen t root) := by
  have absent := not_mem_chosen (s := s) gains formed split
  refine (List.perm_ext_iff_of_nodup (nodup_chosen s t' root)
    (List.nodup_cons.mpr ⟨absent,nodup_chosen s t root⟩)).mpr fun b => ?_
  rw [mem_chosen_gains gains plain formed,List.mem_cons,or_comm]
  refine or_congr_left ⟨fun ⟨same,_⟩ => ?_,?_⟩
  · exact (List.append_cancel_left (split.symm.trans same)).symm
  · rintro rfl
    exact ⟨split,accepted⟩

include gains plain formed found in
/-- A file that is taken is read at its place in the order, beside files of other paths. -/
theorem filesOrNone_of_takes (taken : s.Takes t (folder ++ [name])) : ∃ root below before after,
    t.reach s.root = .ok root ∧ folder ++ [name] = root ++ below ∧ files = before ++ after ∧
      (s.filesOrNone t' = (s.readBelow t' root below).map fun f => before ++ f :: after) ∧
      ∀ f ∈ files, f.path.components ≠ (s.pathOf below).components := by
  obtain ⟨root,node,reached,held,read,found'⟩ := filesOrNone_gains gains plain found
  obtain ⟨root',below,reached',split,accepted⟩ := taken
  obtain rfl : root = root' := Except.ok.inj (reached.symm.trans reached')
  obtain ⟨filled,stands⟩ := gains.root_stands formed held split
  have perm := chosen_gains gains plain formed split accepted
  have entries : ∀ p ∈ s.chosen t' root, ∀ n ∈ p, IsEntry n := entries_of_mem_chosen (gains.formed formed)
  obtain ⟨first,rest,old,new⟩ := mergeSort_insert perm entries
  rw [readChosen,old] at read
  have among : ∀ b ∈ first ++ rest, b ∈ s.chosen t root := fun b member => List.mem_mergeSort.mp (old ▸ member)
  obtain ⟨before,after,files_eq,read'⟩ := mapM_insert read
    (fun b member => readBelow_gains gains formed (among b member)) below
  refine ⟨root,below,before,after,reached,split,files_eq,?_,fun f member same => ?_⟩
  · rw [found',readChosen,new,read']
  · obtain ⟨b,inside,own⟩ := exists_of_mem_mapM read member
    have member := among b inside
    obtain ⟨⟨bytes,file⟩,_⟩ := (mem_chosen formed).mp member
    have filled' : b ≠ [] := by
      rintro rfl
      rw [List.append_nil,stands] at file
      cases file
    have chosen (b) (member : b ∈ below :: s.chosen t root) := entries b (perm.mem_iff.mpr member)
    refine not_mem_chosen gains formed split (components_pathOf_inj s filled filled' (chosen below List.mem_cons_self)
      (chosen b (List.mem_cons_of_mem below member)) ?_ ▸ member)
    rw [← same,readBelow_ok own]

include gains plain formed found in
/-- Only a file that is no text and that is taken ends a scan. -/
theorem filesOrNone_isOk_iff : (∃ files', s.filesOrNone t' = .ok files') ↔
    (Text.ofUtf8? bytes).isSome ∨ ¬s.Takes t (folder ++ [name]) := by
  by_cases taken : s.Takes t (folder ++ [name])
  · obtain ⟨root,below,before,after,_,split,_,found',_⟩ := filesOrNone_of_takes gains plain formed found taken
    rw [found',readBelow_self gains split]
    cases Text.ofUtf8? bytes <;> simp [taken,Except.map]
  · simp [taken,filesOrNone_of_not_takes gains plain formed found taken]

end Gains
end Scan
end InlineIcons
