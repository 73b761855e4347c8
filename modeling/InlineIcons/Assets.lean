import InlineIcons.Asset

/-!
Icons by identifier, in the order of their identifiers and each once.
-/
namespace InlineIcons

structure AssetIndex where
  entries : List Asset
  sorted : entries.Pairwise (fun a b => a.identifier < b.identifier)

namespace AssetIndex

instance : Inhabited AssetIndex := ⟨⟨[], .nil⟩⟩

def empty : AssetIndex := ⟨[], .nil⟩

/-- Puts an icon at its place; one with the same identifier gives way. -/
def insertEntry (a : Asset) : List Asset → List Asset
  | [] => [a]
  | b :: bs =>
    if a.identifier < b.identifier then a :: b :: bs
    else if b.identifier < a.identifier then b :: insertEntry a bs
    else a :: bs

theorem mem_insertEntry {a x : Asset} {l : List Asset} (h : x ∈ insertEntry a l) :
    x = a ∨ x ∈ l := by
  induction l with
  | nil => simpa [insertEntry] using h
  | cons b bs ih =>
    simp only [insertEntry] at h
    split at h
    · simpa using h
    · split at h
      · rcases List.mem_cons.1 h with rfl | h
        · simp
        · rcases ih h with rfl | h <;> simp [*]
      · rcases List.mem_cons.1 h with rfl | h <;> simp [*]

theorem insertEntry_sorted (a : Asset) {l : List Asset}
    (h : l.Pairwise fun a b => a.identifier < b.identifier) :
    (insertEntry a l).Pairwise fun a b => a.identifier < b.identifier := by
  induction l with
  | nil => simp [insertEntry]
  | cons b bs ih =>
    rw [List.pairwise_cons] at h
    simp only [insertEntry]
    split
    · next hlt =>
      refine List.pairwise_cons.2 ⟨fun x hx => ?_, List.pairwise_cons.2 h⟩
      rcases List.mem_cons.1 hx with rfl | hx
      · exact hlt
      · exact String.lt_trans hlt (h.1 x hx)
    · next hge =>
      split
      · next hlt =>
        refine List.pairwise_cons.2 ⟨fun x hx => ?_, ih h.2⟩
        rcases mem_insertEntry hx with rfl | hx
        · exact hlt
        · exact h.1 x hx
      · next hge' =>
        have he : a.identifier = b.identifier :=
          String.le_antisymm (String.not_lt.1 hge') (String.not_lt.1 hge)
        exact List.pairwise_cons.2 ⟨fun x hx => he ▸ h.1 x hx, h.2⟩

def insert (index : AssetIndex) (a : Asset) : AssetIndex :=
  ⟨insertEntry a index.entries, insertEntry_sorted a index.sorted⟩

def ofList (assets : List Asset) : AssetIndex := assets.foldl insert empty

def get? (index : AssetIndex) (identifier : String) : Option Asset :=
  index.entries.find? (·.identifier == identifier)

def identifiers (index : AssetIndex) : List String := index.entries.map Asset.identifier

end AssetIndex
end InlineIcons
