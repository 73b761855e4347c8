import InlineIcons.Proofs.Path
import InlineIcons.Proofs.Pipeline.Run
import Mathlib.Data.List.Dedup

/-! Which files and which declarations of a run count: of all that share a key, the earliest. They are put in
order first and repeats are dropped then, so the choice rests on sorting being stable. -/
namespace InlineIcons

/-- An order of elements that have keys; the elements of one key are those that are the same. -/
structure Groups {α κ : Type} (same before : α → α → Bool) (key : α → κ) : Prop where
  same_iff : ∀ a b, same a b ↔ key a = key b
  trans : ∀ a b c, before a b → before b c → before a c
  total : ∀ a b, before a b || before b a
  level : ∀ a b, key a = key b → before a b
  apart : ∀ a b, before a b → before b a → key a = key b

namespace Groups

variable {α κ : Type} {same before : α → α → Bool} {key : α → κ} (groups : Groups same before key)

include groups in
/-- In a sorted list the elements of one key stand together, so none of them is left beside the one kept. -/
theorem pairwise_dropRepeats {l : List α} (sorted : l.Pairwise (before · ·)) :
    (dropRepeats same l).Pairwise fun a b => before a b ∧ key a ≠ key b := by
  induction l using dropRepeats.induct same with
  | case1 => simp [dropRepeats]
  | case2 a => simp [dropRepeats]
  | case3 a b rest agrees ih =>
    rw [dropRepeats,if_pos agrees]
    refine ih (sorted.sublist ?_)
    exact .cons_cons a (List.sublist_cons_self b rest)
  | case4 a b rest differs ih =>
    rw [dropRepeats,if_neg differs]
    obtain ⟨first,sorted⟩ := List.pairwise_cons.mp sorted
    refine List.pairwise_cons.mpr ⟨fun c member => ?_,ih sorted⟩
    have inside := mem_of_mem_dropRepeats member
    refine ⟨first c inside,fun equal => differs ((groups.same_iff a b).mpr ?_)⟩
    have least : before b c := by
      rcases List.mem_cons.mp inside with rfl | later
      · exact groups.level _ _ rfl
      · exact (List.pairwise_cons.mp sorted).1 c later
    exact groups.apart a b (first b List.mem_cons_self)
      (groups.trans b c a least (groups.level c a equal.symm))

include groups in
theorem pairwise_select (l : List α) :
    (dropRepeats same (l.mergeSort before)).Pairwise fun a b => before a b ∧ key a ≠ key b :=
  groups.pairwise_dropRepeats (List.pairwise_mergeSort groups.trans groups.total l)

include groups in
theorem nodup_select (l : List α) : ((dropRepeats same (l.mergeSort before)).map key).Nodup :=
  List.pairwise_map.mpr ((groups.pairwise_select l).imp And.right)

include groups in
theorem select_eq_self {l : List α} (sorted : l.Pairwise fun a b => before a b ∧ key a ≠ key b) :
    dropRepeats same (l.mergeSort before) = l := by
  rw [List.mergeSort_of_pairwise (sorted.imp And.left)]
  induction l using dropRepeats.induct same with
  | case1 => rw [dropRepeats]
  | case2 a => rw [dropRepeats]
  | case3 a b rest agrees =>
    have apart := (List.pairwise_cons.mp sorted).1 b List.mem_cons_self
    exact absurd ((groups.same_iff a b).mp agrees) apart.2
  | case4 a b rest differs ih => rw [dropRepeats,if_neg differs,ih (List.pairwise_cons.mp sorted).2]

include groups in
theorem eq_of_mem_iff {l l' : List α} (left : l.Pairwise fun a b => before a b ∧ key a ≠ key b)
    (right : l'.Pairwise fun a b => before a b ∧ key a ≠ key b) (members : ∀ a, a ∈ l ↔ a ∈ l') : l = l' := by
  have nodup : ∀ {m : List α}, m.Pairwise (fun a b => before a b ∧ key a ≠ key b) → m.Nodup :=
    fun pairs => pairs.imp fun apart equal => apart.2 (congrArg key equal)
  refine List.Perm.eq_of_pairwise (fun a b _ _ first second => ?_) left right ?_
  · exact absurd (groups.apart a b first.1 second.1) first.2
  · exact (List.perm_ext_iff_of_nodup (nodup left) (nodup right)).mpr members

variable [DecidableEq κ]

/-- Where no key is repeated, every element is the earliest of its key. -/
theorem find?_key_iff {l : List α} (distinct : (l.map key).Nodup) (a : α) :
    l.find? (key · = key a) = some a ↔ a ∈ l := by
  constructor
  · exact List.mem_of_find?_eq_some
  · intro member
    obtain ⟨b,found⟩ : ∃ b, l.find? (key · = key a) = some b :=
      Option.isSome_iff_exists.mp (List.find?_isSome.mpr ⟨a,member,by simp⟩)
    have equal : key b = key a := by simpa using List.find?_some found
    rw [found,List.inj_on_of_nodup_map distinct (List.mem_of_find?_eq_some found) member equal]

include groups in
theorem find?_dropRepeats (l : List α) (k : κ) :
    (dropRepeats same l).find? (key · = k) = l.find? (key · = k) := by
  induction l using dropRepeats.induct same with
  | case1 => rw [dropRepeats]
  | case2 a => rw [dropRepeats]
  | case3 a b rest agrees ih =>
    have equal := (groups.same_iff a b).mp agrees
    rw [dropRepeats,if_pos agrees,ih]
    by_cases here : key a = k <;> simp [here,← equal]
  | case4 a b rest differs ih =>
    rw [dropRepeats,if_neg differs,List.find?_cons,ih]
    rfl

include groups in
theorem find?_mergeSort (l : List α) (k : κ) : (l.mergeSort before).find? (key · = k) = l.find? (key · = k) := by
  have level : (l.filter (key · = k)).Pairwise (before · ·) := by
    refine List.pairwise_of_forall_mem_list fun a member b member' => groups.level a b ?_
    have here : key a = k := by simpa using (List.mem_filter.mp member).2
    have there : key b = k := by simpa using (List.mem_filter.mp member').2
    rw [here,there]
  have inside : (l.filter (key · = k)).Sublist (l.mergeSort before) :=
    List.sublist_mergeSort groups.trans groups.total level List.filter_sublist
  have perm := (List.mergeSort_perm l before).filter (key · = k)
  have stable : (l.mergeSort before).filter (key · = k) = l.filter (key · = k) := by
    have whole := inside.filter (key · = k)
    rw [List.filter_filter] at whole
    simp only [Bool.and_self] at whole
    exact (whole.eq_of_length perm.length_eq.symm).symm
  rw [← List.head?_filter,← List.head?_filter,stable]

include groups in
theorem find?_select (l : List α) (k : κ) :
    (dropRepeats same (l.mergeSort before)).find? (key · = k) = l.find? (key · = k) := by
  rw [groups.find?_dropRepeats,groups.find?_mergeSort]

include groups in
/-- What is selected is the earliest element of its key. -/
theorem mem_select_iff (l : List α) (a : α) :
    a ∈ dropRepeats same (l.mergeSort before) ↔ l.find? (key · = key a) = some a := by
  rw [← groups.find?_select,find?_key_iff (groups.nodup_select l)]

include groups in
theorem mem_keys_select (l : List α) (k : κ) :
    k ∈ (dropRepeats same (l.mergeSort before)).map key ↔ k ∈ l.map key := by
  have found : ∀ l : List α, k ∈ l.map key ↔ (l.find? (key · = k)).isSome := by
    intro l
    simp [List.find?_isSome]
  rw [found,found,groups.find?_select]

include groups in
/-- There is one element for each key. -/
theorem length_select (l : List α) : (dropRepeats same (l.mergeSort before)).length = (l.map key).dedup.length := by
  have perm : ((dropRepeats same (l.mergeSort before)).map key).Perm (l.map key).dedup := by
    refine (List.perm_ext_iff_of_nodup (groups.nodup_select l) (List.nodup_dedup _)).mpr fun k => ?_
    rw [groups.mem_keys_select,List.mem_dedup]
  rw [← perm.length_eq,List.length_map]

include groups in
/-- To leave out some keys first or last is the same. -/
theorem select_filter {q : α → Bool} (keyed : ∀ a b, key a = key b → q a = q b) (l : List α) :
    dropRepeats same ((l.filter q).mergeSort before) = (dropRepeats same (l.mergeSort before)).filter q := by
  refine groups.eq_of_mem_iff (groups.pairwise_select _) ((groups.pairwise_select l).filter q) fun a => ?_
  have held : (l.filter q).find? (key · = key a) = some a ↔ l.find? (key · = key a) = some a ∧ q a := by
    cases kept : q a with
    | true =>
      have same : ∀ b, (q b && decide (key b = key a)) = decide (key b = key a) := by
        intro b
        by_cases equal : key b = key a
        · simp [equal,keyed b a equal,kept]
        · simp [equal]
      rw [List.find?_filter]
      simp [same]
    | false =>
      constructor
      · intro found
        have member := List.mem_of_find?_eq_some found
        simp [kept] at member
      · rintro ⟨_,kept⟩
        cases kept
  rw [groups.mem_select_iff,held,List.mem_filter,groups.mem_select_iff]

include groups in
/-- Where no key is repeated, nothing is left out, and the order of the list is of no matter. -/
theorem select_perm {l l' : List α} (perm : l.Perm l') (distinct : (l.map key).Nodup) :
    dropRepeats same (l.mergeSort before) = dropRepeats same (l'.mergeSort before) := by
  refine groups.eq_of_mem_iff (groups.pairwise_select l) (groups.pairwise_select l') fun a => ?_
  rw [groups.mem_select_iff,groups.mem_select_iff,find?_key_iff distinct,
    find?_key_iff ((perm.map key).nodup_iff.mp distinct),perm.mem_iff]

end Groups

namespace AssetFile

theorem groups : Groups (fun a b => a.path.same b.path) precedes fun f => f.path.components where
  same_iff a b := by simp [Path.same]
  trans a b c := Path.isLE_cmp_trans
  total a b := Path.isLE_cmp_total ..
  level a b equal := by
    have reflexive := Path.isLE_cmp_total b.path b.path
    simp only [precedes,Path.cmp,equal,Bool.or_self] at reflexive ⊢
    exact reflexive
  apart a b := Path.components_eq_of_isLE

theorem mem_select_iff {extension : String} {files : List AssetFile} {f : AssetFile} :
    f ∈ select extension files ↔
      (files.filter (·.path.hasExtension extension)).find? (·.path.components = f.path.components) = some f :=
  groups.mem_select_iff _ f

theorem nodup_select (extension : String) (files : List AssetFile) :
    ((select extension files).map (·.path.components)).Nodup := groups.nodup_select _

theorem pairwise_select (extension : String) (files : List AssetFile) :
    (select extension files).Pairwise fun f g => f.path.cmp g.path = .lt :=
  (groups.pairwise_select _).imp fun before => Path.cmp_eq_lt before.1 before.2

theorem before_and_behind {first rest : List AssetFile} {f : AssetFile}
    (ordered : (first ++ f :: rest).Pairwise fun f g => f.path.cmp g.path = .lt) :
    (∀ g ∈ first, g.path.cmp f.path = .lt) ∧ ∀ g ∈ rest, f.path.cmp g.path = .lt := by
  obtain ⟨_,behind,before⟩ := List.pairwise_append.mp ordered
  exact ⟨fun g member => before g member f List.mem_cons_self,(List.pairwise_cons.mp behind).1⟩

theorem apart_of_nodup {first rest : List AssetFile} {f : AssetFile}
    (distinct : ((first ++ f :: rest).map (·.path.components)).Nodup) :
    ∀ g ∈ first ++ rest, g.path.components ≠ f.path.components := by
  rw [List.map_append,List.map_cons,List.nodup_middle,← List.map_append,List.nodup_cons] at distinct
  exact fun g member same => distinct.1 (same ▸ List.mem_map_of_mem member)

theorem distinct_select (extension : String) (files : List AssetFile) : (select extension files).Nodup :=
  (nodup_select extension files).of_map _

theorem select_eq_self {extension : String} {files : List AssetFile} (all : ∀ f ∈ files, f.path.hasExtension extension)
    (sorted : files.Pairwise fun f g => precedes f g ∧ f.path.components ≠ g.path.components) :
    select extension files = files := by
  rw [select,List.filter_eq_self.mpr all]
  exact groups.select_eq_self sorted

/-- Files at some paths can be left out before or after the selection. -/
theorem select_filter {q : AssetFile → Bool} (keyed : ∀ f g, f.path.components = g.path.components → q f = q g)
    (extension : String) (files : List AssetFile) :
    select extension (files.filter q) = (select extension files).filter q := by
  have swap : (files.filter q).filter (·.path.hasExtension extension) =
      (files.filter (·.path.hasExtension extension)).filter q := List.filter_comm ..
  rw [select,swap]
  exact groups.select_filter keyed _

theorem select_perm {files files' : List AssetFile} (perm : files.Perm files')
    (distinct : (files.map (·.path.components)).Nodup) (extension : String) :
    select extension files = select extension files' := by
  have chosen : (files.filter (·.path.hasExtension extension)).Sublist files := List.filter_sublist
  exact groups.select_perm (perm.filter _) (distinct.sublist (chosen.map _))

def provides (identifier : String) (f : AssetFile) : Bool :=
  match f.load with
  | .ok a => a.identifier == identifier
  | .error _ => false

/-- The file that gives an identifier its icon: the first of those selected that provides it. -/
def winner? (extension : String) (files : List AssetFile) (identifier : String) : Option AssetFile :=
  (select extension files).find? (provides identifier)

/-- A file's path decides which identifier it can provide. -/
theorem toIdentifier_of_provides {f : AssetFile} {identifier : String} (provided : f.provides identifier) :
    Stem.toIdentifier (f.path.fileStem?.getD "") = .ok identifier := by
  unfold provides at provided
  cases loaded : f.load with
  | error e => simp [loaded] at provided
  | ok a =>
    simp only [loaded,beq_iff_eq] at provided
    exact provided ▸ Asset.toIdentifier_of_load loaded

end AssetFile

/-- Inputs with one more file, at a path that no other file has. -/
structure Inputs.Adds (asset : AssetFile) (before after : Inputs) : Prop where
  declarations : after.declarations = before.declarations
  assets : ∃ first rest, before.assets = first ++ rest ∧ after.assets = first ++ asset :: rest
  apart : ∀ f ∈ before.assets, f.path.components ≠ asset.path.components

namespace Inputs.Adds

variable {asset : AssetFile} {before after : Inputs} (adds : Adds asset before after)

include adds in
theorem eq_of_components {f : AssetFile} (member : f ∈ after.assets)
    (same : f.path.components = asset.path.components) : f = asset := by
  obtain ⟨first,rest,whole,more⟩ := adds.assets
  rw [more] at member
  by_contra other
  refine adds.apart f ?_ same
  rw [whole]
  simpa [other] using member

include adds in
theorem select_eq (extension : String) :
    (AssetFile.select extension after.assets).filter (·.path.components ≠ asset.path.components) =
      AssetFile.select extension before.assets := by
  obtain ⟨first,rest,whole,more⟩ := adds.assets
  have others : before.assets.filter (·.path.components ≠ asset.path.components) = before.assets :=
    List.filter_eq_self.mpr fun f member => decide_eq_true (adds.apart f member)
  have left : after.assets.filter (·.path.components ≠ asset.path.components) = before.assets := by
    rw [← others,whole,more]
    simp
  rw [← AssetFile.select_filter (fun f g same => by rw [same]),left]

include adds in
theorem mem_select {extension : String} (extended : asset.path.hasExtension extension) :
    asset ∈ AssetFile.select extension after.assets := by
  obtain ⟨first,rest,_,more⟩ := adds.assets
  have inside : asset ∈ after.assets.filter (·.path.hasExtension extension) :=
    List.mem_filter.mpr ⟨by simp [more],extended⟩
  obtain ⟨f,found⟩ : ∃ f, (after.assets.filter (·.path.hasExtension extension)).find?
      (·.path.components = asset.path.components) = some f :=
    Option.isSome_iff_exists.mp (List.find?_isSome.mpr ⟨asset,inside,by simp⟩)
  have same : f.path.components = asset.path.components := by simpa using List.find?_some found
  obtain rfl := adds.eq_of_components (List.mem_filter.mp (List.mem_of_find?_eq_some found)).1 same
  exact AssetFile.mem_select_iff.mpr found

include adds in
theorem select_insert {extension : String} (extended : asset.path.hasExtension extension) :
    ∃ first rest, AssetFile.select extension before.assets = first ++ rest ∧
      AssetFile.select extension after.assets = first ++ asset :: rest := by
  obtain ⟨first,rest,split⟩ := List.append_of_mem (adds.mem_select extended)
  refine ⟨first,rest,?_,split⟩
  have distinct := AssetFile.nodup_select extension after.assets
  rw [split] at distinct
  have others : (first ++ rest).filter (·.path.components ≠ asset.path.components) = first ++ rest :=
    List.filter_eq_self.mpr fun f member => decide_eq_true (AssetFile.apart_of_nodup distinct f member)
  rw [← adds.select_eq,split,← others]
  simp

end Inputs.Adds

/-- A file counts if it has the extension and no earlier one that has it is at the same path. -/
def Inputs.Counts (inputs : Inputs) (extension : String) (f : AssetFile) : Prop :=
  (inputs.assets.filter (·.path.hasExtension extension)).find? (·.path.components = f.path.components) = some f

theorem Inputs.counts_iff {inputs : Inputs} {extension : String} {f : AssetFile} :
    inputs.Counts extension f ↔ f ∈ AssetFile.select extension inputs.assets := AssetFile.mem_select_iff.symm

theorem Inputs.Counts.mem {inputs : Inputs} {extension : String} {f : AssetFile} (counts : inputs.Counts extension f) :
    f ∈ inputs.assets := List.mem_of_mem_filter (List.mem_of_find?_eq_some counts)

theorem Declaration.groups : Groups (fun a b : Declaration => a.id = b.id) precedes Declaration.id where
  same_iff a b := by simp
  trans a b c first second := by
    simp only [precedes,Bool.not_eq_true',decide_eq_false_iff_not,String.not_lt] at *
    exact String.le_trans first second
  total a b := by
    simp only [precedes,Bool.or_eq_true,Bool.not_eq_true',decide_eq_false_iff_not,String.not_lt]
    exact String.le_total ..
  level a b equal := by
    simp only [precedes,equal,Bool.not_eq_true',decide_eq_false_iff_not]
    exact String.lt_irrefl _
  apart a b first second := by
    simp only [precedes,Bool.not_eq_true',decide_eq_false_iff_not,String.not_lt] at *
    have texts := String.le_antisymm first second
    cases same : a.id
    cases same' : b.id
    simpa [same,same'] using texts

theorem Declaration.pairwise_select (declarations : List Declaration) :
    ((select declarations).map Declaration.id).Pairwise fun i j => i.text < j.text := by
  refine List.pairwise_map.mpr ((groups.pairwise_select _).imp fun {d e} before => ?_)
  have least : d.id.text ≤ e.id.text := by
    simpa only [precedes,Bool.not_eq_true',decide_eq_false_iff_not,String.not_lt] using before.1
  refine String.not_le.mp fun greatest => before.2 (groups.apart d e before.1 ?_)
  simpa only [precedes,Bool.not_eq_true',decide_eq_false_iff_not,String.not_lt] using greatest

end InlineIcons
