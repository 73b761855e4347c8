import InlineIcons.Assets
import InlineIcons.Proofs.Identifier
import Mathlib.Data.List.Nodup

/-! An index of icons as a look-up by identifier: what an insertion changes, what a list of icons with
distinct identifiers leads to, and that looking up every identifier gives the entries back. -/
namespace InlineIcons

theorem Asset.toIdentifier_of_load {path : Path} {content : String} {a : Asset}
    (loaded : load path content = .ok a) : Stem.toIdentifier (path.fileStem?.getD "") = .ok a.identifier := by
  unfold load at loaded
  cases named : Stem.toIdentifier (path.fileStem?.getD "") with
  | error cause => simp [named] at loaded
  | ok identifier =>
    cases read : Markup.Root.ofContent content.toList with
    | error fault => simp [named,read] at loaded
    | ok root =>
      simp only [named,read,Except.ok.injEq] at loaded
      exact loaded ▸ rfl

theorem Asset.isAlphanum_of_load {path : Path} {content : String} {a : Asset}
    (loaded : load path content = .ok a) : ∀ c ∈ a.identifier.toList, c.isAlphanum :=
  Stem.isAlphanum_of_toIdentifier (toIdentifier_of_load loaded)

namespace AssetIndex

theorem find?_insertEntry (a : Asset) (l : List Asset) (identifier : String) :
    (insertEntry a l).find? (·.identifier == identifier) =
      if a.identifier = identifier then some a else l.find? (·.identifier == identifier) := by
  induction l with
  | nil => by_cases same : a.identifier = identifier <;> simp [insertEntry,same]
  | cons b bs ih =>
    unfold insertEntry
    split
    · by_cases same : a.identifier = identifier <;> simp [same]
    split
    · next before =>
      by_cases same : a.identifier = identifier
      · have other : b.identifier ≠ identifier := fun hit =>
          absurd before (by rw [hit,same]; exact String.lt_irrefl _)
        rw [List.find?_cons_of_neg (by simpa using other),ih]
        simp [same]
      · rw [List.find?_cons,List.find?_cons,ih]
        simp [same]
    · next after before =>
      have equal : a.identifier = b.identifier :=
        String.le_antisymm (String.not_lt.mp before) (String.not_lt.mp after)
      by_cases same : a.identifier = identifier
      · simp [same]
      · simp [same,← equal]

theorem get?_insert (index : AssetIndex) (a : Asset) (identifier : String) :
    (index.insert a).get? identifier =
      if a.identifier = identifier then some a else index.get? identifier :=
  find?_insertEntry a index.entries identifier

theorem get?_foldl_insert (assets : List Asset) (index : AssetIndex) (identifier : String)
    (distinct : (assets.map Asset.identifier).Nodup) :
    (assets.foldl insert index).get? identifier =
      (assets.find? (·.identifier == identifier)).or (index.get? identifier) := by
  induction assets generalizing index with
  | nil => simp
  | cons a assets ih =>
    obtain ⟨fresh,distinct⟩ := List.nodup_cons.mp distinct
    rw [List.foldl_cons,ih (index.insert a) distinct,get?_insert]
    by_cases same : a.identifier = identifier
    · subst same
      have gone : assets.find? (·.identifier == a.identifier) = none := by
        refine List.find?_eq_none.mpr fun b member hit => fresh ?_
        exact List.mem_map.mpr ⟨b,member,by simpa using hit⟩
      simp [gone]
    · simp [same]

theorem get?_ofList {assets : List Asset} (distinct : (assets.map Asset.identifier).Nodup)
    (identifier : String) :
    (ofList assets).get? identifier = assets.find? (·.identifier == identifier) := by
  have nothing : (empty.get? identifier) = none := rfl
  rw [ofList,get?_foldl_insert assets empty identifier distinct,nothing,Option.or_none]

theorem identifiers_nodup (index : AssetIndex) : index.identifiers.Nodup := by
  refine List.pairwise_map.mpr (index.sorted.imp fun before same => ?_)
  exact absurd before (same ▸ String.lt_irrefl _)

theorem get?_of_mem {index : AssetIndex} {a : Asset} (member : a ∈ index.entries) :
    index.get? a.identifier = some a := by
  cases found : index.get? a.identifier with
  | none =>
    have := List.find?_eq_none.mp found a member
    simp at this
  | some b =>
    have named : b.identifier = a.identifier := by simpa using List.find?_some found
    have inside := List.mem_of_find?_eq_some found
    exact congrArg some (List.inj_on_of_nodup_map index.identifiers_nodup inside member named)

theorem mem_identifiers_iff (index : AssetIndex) (identifier : String) :
    identifier ∈ index.identifiers ↔ (index.get? identifier).isSome := by
  simp [identifiers,get?,List.find?_isSome]

theorem filterMap_get? (index : AssetIndex) : index.identifiers.filterMap index.get? = index.entries := by
  rw [identifiers,List.filterMap_map]
  have found : ∀ a ∈ index.entries, (index.get? ∘ Asset.identifier) a = some a :=
    fun a member => get?_of_mem member
  rw [List.filterMap_congr found,List.filterMap_some]

theorem ext_of_get? {index other : AssetIndex} (identifiers : index.identifiers = other.identifiers)
    (same : ∀ identifier ∈ index.identifiers, index.get? identifier = other.get? identifier) :
    index = other := by
  have entries : index.entries = other.entries := by
    rw [← filterMap_get?,← filterMap_get?,← identifiers]
    exact List.filterMap_congr same
  cases index
  cases other
  simpa using entries

end AssetIndex
end InlineIcons
