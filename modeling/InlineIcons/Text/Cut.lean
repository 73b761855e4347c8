/-!
Cutting a text at a mark, and lengths in bytes. Cutting splits the text: what stands before the
mark, the mark, and what follows make up the text again.
-/
namespace InlineIcons.Text

def byteLength : List Char → Nat
  | [] => 0
  | c :: cs => c.utf8Size + byteLength cs

/-- What stands before the first occurrence of a mark and what follows it. -/
def cutAt? (mark : List Char) (cs : List Char) : Option (List Char × List Char) :=
  if mark.isPrefixOf cs then some ([], cs.drop mark.length)
  else match cs with
    | [] => none
    | c :: rest => (cutAt? mark rest).map fun (before, after) => (c :: before, after)

theorem eq_append_of_cutAt? {mark cs before after : List Char}
    (h : cutAt? mark cs = some (before, after)) : cs = before ++ mark ++ after := by
  induction cs generalizing before with
  | nil =>
    simp only [cutAt?, Option.ite_none_right_eq_some] at h
    obtain ⟨hp, he⟩ := h
    have := List.isPrefixOf_iff_prefix.1 hp
    simp_all
  | cons c cs ih =>
    rw [cutAt?] at h
    split at h
    · next hp =>
      obtain ⟨t, ht⟩ := List.isPrefixOf_iff_prefix.1 hp
      simp only [Option.some.injEq, Prod.mk.injEq] at h
      simp [← h.1, ← h.2, ← ht]
    · simp only [Option.map_eq_some_iff, Prod.mk.injEq, Prod.exists] at h
      obtain ⟨b, a, hb, rfl, rfl⟩ := h
      simp [ih hb]

theorem cutAt?_length_le {mark cs before after : List Char}
    (h : cutAt? mark cs = some (before, after)) : after.length ≤ cs.length := by
  rw [eq_append_of_cutAt? h]; simp; omega

end InlineIcons.Text
