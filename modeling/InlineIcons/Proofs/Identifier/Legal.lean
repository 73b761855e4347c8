import InlineIcons.Proofs.Identifier
import InlineIcons.Source.Token
import InlineIcons.Text.Word

/-! Which of the identifiers that stems lead to can name anything in program text: those that do not begin with a
digit, apart from the keyword that `self` leads to. -/
namespace InlineIcons

structure Identifier.IsLegal (name : String) : Prop where
  start : name.toList.head?.any Text.isWordStart
  word : ∀ c ∈ name.toList.tail, Text.isWordContinue c
  free : Source.isKeyword name = false

namespace Stem

/-- A stem that begins with a letter and is not `self` in whatever case. -/
structure NamesMember (stem : String) : Prop where
  letter : stem.toList.head?.any Char.isAlpha
  other : stem.toList.map Char.toLower ≠ "self".toList

instance (stem : String) : Decidable (NamesMember stem) :=
  decidable_of_iff (stem.toList.head?.any Char.isAlpha ∧ stem.toList.map Char.toLower ≠ "self".toList)
    ⟨fun ⟨letter,other⟩ => ⟨letter,other⟩,fun names => ⟨names.letter,names.other⟩⟩

theorem isWordContinue_of_isAlphanum {c : Char} (letter : c.isAlphanum) : Text.isWordContinue c := by
  rw [Text.isWordContinue,if_pos (toNat_lt_of_isAlphanum letter),letter]
  rfl

theorem isWordStart_toUpper {c : Char} (letter : c.isAlphanum) : Text.isWordStart c.toUpper = c.isAlpha :=
  forall_isAlphanum (p := fun c => Text.isWordStart c.toUpper = c.isAlpha) (by decide) letter

theorem isKeyword_iff_of_toUpper {name : String} {c : Char} (letter : c.isAlphanum)
    (first : name.toList.head? = some c.toUpper) : Source.isKeyword name ↔ name = "Self" := by
  have big : c.toUpper.isLower = false ∧ c.toUpper ≠ '_' :=
    forall_isAlphanum (p := fun c => c.toUpper.isLower = false ∧ c.toUpper ≠ '_') (by decide) letter
  have table : ∀ k ∈ Source.keywords, k = "Self" ∨ k.toList.head?.any fun c => c.isLower || c = '_' := by
    decide +kernel
  rw [Source.isKeyword,List.contains_iff_mem]
  constructor
  · intro member
    refine (table name member).resolve_right fun small => ?_
    simp [first,big] at small
  · rintro rfl
    decide

/-- Segments that make up `Self` are one segment, which is `self` but for its case. -/
theorem capitalize_eq_self_iff {c : Char} {cs : List Char} {others : List (List Char)} (letter : c.isAlphanum)
    (plain : ∀ segment ∈ others, segment ≠ [] ∧ ∀ d ∈ segment, d.isAlphanum) :
    ((c :: cs) :: others).flatMap capitalize = ['S','e','l','f'] ↔
      ((c :: cs) ++ others.flatMap ('-' :: ·)).map Char.toLower = ['s','e','l','f'] := by
  have first : c.toUpper = 'S' ↔ c.toLower = 's' :=
    forall_isAlphanum (p := fun c => c.toUpper = 'S' ↔ c.toLower = 's') (by decide) letter
  cases others with
  | nil => simp [capitalize,first]
  | cons second others =>
    obtain ⟨filled,letters⟩ := plain second List.mem_cons_self
    obtain ⟨d,ds,rfl⟩ := List.exists_cons_of_ne_nil filled
    refine iff_of_false (fun same => ?_) fun same => ?_
    · have capital : d.toUpper.isLower = false :=
        forall_isAlphanum (p := fun d => d.toUpper.isLower = false) (by decide) (letters d List.mem_cons_self)
      simp only [List.flatMap_cons,capitalize,List.cons_append] at same
      have small : ∀ e ∈ ['e','l','f'], e.isLower := List.all_eq_true.mp (by decide)
      have inside : d.toUpper ∈ ['e','l','f'] := by
        rw [← (List.cons.inj same).2]
        simp
      simp [small d.toUpper inside] at capital
    · have hyphen : '-' ∈ ['s','e','l','f'] := same ▸ List.mem_map.mpr ⟨'-',by simp,rfl⟩
      revert hyphen
      decide

/-- The identifier of a stem can name a member just if the stem begins with a letter and is not `self`. -/
theorem isLegal_iff {stem identifier : String} (named : toIdentifier stem = .ok identifier) :
    Identifier.IsLegal identifier ↔ NamesMember stem := by
  have letters := isAlphanum_of_toIdentifier named
  obtain ⟨kebab,rfl⟩ := toIdentifier_eq_ok_iff.mp named
  obtain ⟨segment,others,cut⟩ := List.exists_cons_of_ne_nil (List.splitOn_ne_nil '-' stem.toList)
  rw [← segments] at cut
  rw [IsKebab,cut] at kebab
  obtain ⟨⟨filled,plain⟩,rest⟩ := List.forall_mem_cons.mp kebab
  obtain ⟨c,cs,rfl⟩ := List.exists_cons_of_ne_nil filled
  have letter := plain c List.mem_cons_self
  have whole := toList_of_segments cut
  have first : (String.ofList ((segments stem).flatMap capitalize)).toList.head? = some c.toUpper := by
    simp [cut,capitalize]
  have begins : (String.ofList ((segments stem).flatMap capitalize)).toList.head?.any Text.isWordStart ↔
      stem.toList.head?.any Char.isAlpha := by
    rw [first,whole]
    simp [isWordStart_toUpper letter]
  have free : Source.isKeyword (String.ofList ((segments stem).flatMap capitalize)) = false ↔
      stem.toList.map Char.toLower ≠ "self".toList := by
    rw [← Bool.not_eq_true,isKeyword_iff_of_toUpper letter first,← String.toList_inj,String.toList_ofList,cut,whole]
    exact not_congr (capitalize_eq_self_iff letter rest)
  constructor
  · exact fun legal => ⟨begins.mp legal.start,free.mp legal.free⟩
  · intro names
    refine ⟨begins.mpr names.letter,fun d member => ?_,free.mpr names.other⟩
    exact isWordContinue_of_isAlphanum (letters d (List.mem_of_mem_tail member))

end Stem
end InlineIcons
