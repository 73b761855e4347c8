import InlineIcons.Identifier

/-! The identifiers that stems lead to are made of ASCII letters and digits. -/
namespace InlineIcons.Stem

theorem toNat_lt_of_isAlphanum {c : Char} (letter : c.isAlphanum) : c.toNat < 128 := by
  change (decide ('A'.val ≤ c.val ∧ c.val ≤ 'Z'.val) || (decide ('a'.val ≤ c.val) && decide (c.val ≤ 'z'.val)) ||
    (decide ('0'.val ≤ c.val) && decide (c.val ≤ '9'.val))) = true at letter
  change c.val.toNat < 128
  simp only [Bool.or_eq_true,Bool.and_eq_true,decide_eq_true_eq,UInt32.le_iff_toNat_le] at letter
  rcases letter with (⟨_,high⟩ | ⟨_,high⟩) | ⟨_,high⟩ <;> exact Nat.lt_of_le_of_lt high (by decide)

theorem utf8EncodeChar_of_isAlphanum {c : Char} (letter : c.isAlphanum) :
    ∃ b, String.utf8EncodeChar c = [b] ∧ b ≠ 32 := by
  have small := toNat_lt_of_isAlphanum letter
  have single : c.utf8Size = 1 :=
    Char.utf8Size_eq_one_iff.mpr (UInt32.le_iff_toNat_le.mpr (Nat.le_of_lt_succ small))
  refine ⟨c.val.toUInt8,String.utf8EncodeChar_eq_singleton single,fun blank => ?_⟩
  have value : c.toNat % 256 = 32 := congrArg UInt8.toNat blank
  have blank : c = ' ' := Char.toNat_inj.mp (by change c.toNat = 32; omega)
  exact absurd letter (by rw [blank]; decide)

/-- What a table has for all letters and digits. -/
theorem forall_isAlphanum {p : Char → Prop} (table : ∀ n < 128, (Char.ofNat n).isAlphanum → p (Char.ofNat n)) {c : Char}
    (letter : c.isAlphanum) : p c := by
  have := table c.toNat (toNat_lt_of_isAlphanum letter)
  rw [Char.ofNat_toNat] at this
  exact this letter

theorem isAlpha_eq (c : Char) : c.isAlpha = (c.isUpper || c.isLower) := rfl

theorem isAlphanum_cased {c : Char} (letter : c.isAlphanum) : c.toUpper.isAlphanum ∧ c.toLower.isAlphanum :=
  forall_isAlphanum (p := fun c => c.toUpper.isAlphanum ∧ c.toLower.isAlphanum) (by decide) letter

theorem toUpper_kinds {c : Char} (letter : c.isAlphanum) :
    c.toUpper.isUpper = c.isAlpha ∧ c.toUpper.isLower = false ∧ c.toUpper.isDigit = c.isDigit :=
  forall_isAlphanum (p := fun c => c.toUpper.isUpper = c.isAlpha ∧ c.toUpper.isLower = false ∧
    c.toUpper.isDigit = c.isDigit) (by decide) letter

theorem toLower_kinds {c : Char} (letter : c.isAlphanum) :
    c.toLower.isLower = c.isAlpha ∧ c.toLower.isUpper = false ∧ c.toLower.isDigit = c.isDigit :=
  forall_isAlphanum (p := fun c => c.toLower.isLower = c.isAlpha ∧ c.toLower.isUpper = false ∧
    c.toLower.isDigit = c.isDigit) (by decide) letter

theorem toLower_eq_self_iff {c : Char} (letter : c.isAlphanum) : c.toLower = c ↔ c.isUpper = false :=
  forall_isAlphanum (p := fun c => c.toLower = c ↔ c.isUpper = false) (by decide) letter

theorem toLower_cased {c : Char} (letter : c.isAlphanum) :
    c.toUpper.toLower = c.toLower ∧ c.toLower.toLower = c.toLower :=
  forall_isAlphanum (p := fun c => c.toUpper.toLower = c.toLower ∧ c.toLower.toLower = c.toLower) (by decide) letter

theorem map_toLower_capitalize {cs : List Char} (letters : ∀ c ∈ cs, c.isAlphanum) :
    (capitalize cs).map Char.toLower = cs.map Char.toLower := by
  cases cs with
  | nil => rfl
  | cons c cs =>
    obtain ⟨first,others⟩ := List.forall_mem_cons.mp letters
    simp only [capitalize,List.map_cons,List.map_map,(toLower_cased first).1,List.cons.injEq,true_and]
    exact List.map_congr_left fun d member => (toLower_cased (others d member)).2

theorem hyphen_not_mem_lower {w : List Char} (letters : ∀ c ∈ w, c.isAlphanum) : '-' ∉ w.map Char.toLower := by
  intro hyphen
  obtain ⟨c,letter,lower⟩ := List.mem_map.mp hyphen
  have plain := (isAlphanum_cased (letters c letter)).2
  rw [lower] at plain
  cases plain

theorem isAlphanum_capitalize {cs : List Char} (plain : ∀ c ∈ cs, c.isAlphanum) :
    ∀ c ∈ capitalize cs, c.isAlphanum := by
  intro c member
  cases cs with
  | nil => simp [capitalize] at member
  | cons d cs =>
    rcases List.mem_cons.mp member with rfl | member
    · exact (isAlphanum_cased (plain d List.mem_cons_self)).1
    · obtain ⟨e,inside,rfl⟩ := List.mem_map.mp member
      exact (isAlphanum_cased (plain e (List.mem_cons_of_mem d inside))).2

theorem segmentFault?_eq_none_iff {stem : String} {index : Nat} {segment : List Char} :
    segmentFault? stem index segment = none ↔ segment ≠ [] ∧ ∀ c ∈ segment, c.isAlphanum := by
  cases segment <;> simp [segmentFault?]

theorem fault?_eq_none_iff {stem : String} {segments : List (List Char)} {index : Nat} :
    fault? stem index segments = none ↔ ∀ segment ∈ segments, segment ≠ [] ∧ ∀ c ∈ segment, c.isAlphanum := by
  induction segments generalizing index with
  | nil => simp [fault?]
  | cons segment segments ih => rw [fault?,Option.or_eq_none_iff,segmentFault?_eq_none_iff,ih,List.forall_mem_cons]

/-- Segments of letters and digits between hyphens, none of them empty. -/
def IsKebab (stem : String) : Prop :=
  ∀ segment ∈ segments stem, segment ≠ [] ∧ ∀ c ∈ segment, c.isAlphanum

instance (stem : String) : Decidable (IsKebab stem) :=
  decidable_of_iff ((segments stem).all fun segment => !segment.isEmpty && segment.all Char.isAlphanum)
    (by simp [IsKebab])

/-- The stems that have an identifier are those in kebab case. -/
theorem toIdentifier_eq_ok_iff {stem identifier : String} : toIdentifier stem = .ok identifier ↔
    IsKebab stem ∧ String.ofList ((segments stem).flatMap capitalize) = identifier := by
  have filled : IsKebab stem → stem.isEmpty = false := by
    intro kebab
    rw [Bool.eq_false_iff]
    intro bare
    rw [String.isEmpty_iff.mp bare] at kebab
    exact (kebab [] (by simp [segments])).1 rfl
  unfold toIdentifier
  cases faults : fault? stem 0 (segments stem) with
  | none =>
    have kebab : IsKebab stem := fault?_eq_none_iff.mp faults
    simp [filled kebab,kebab]
  | some e =>
    have ragged : ¬ IsKebab stem := fun kebab => by simp [fault?_eq_none_iff.mpr kebab] at faults
    simp only [ragged,false_and,iff_false]
    split <;> exact nofun

theorem toIdentifier_of_kebab {stem : String} (kebab : IsKebab stem) :
    toIdentifier stem = .ok (String.ofList ((segments stem).flatMap capitalize)) :=
  toIdentifier_eq_ok_iff.mpr ⟨kebab,rfl⟩

theorem isAlphanum_of_toIdentifier {stem identifier : String}
    (named : toIdentifier stem = .ok identifier) : ∀ c ∈ identifier.toList, c.isAlphanum := by
  obtain ⟨kebab,rfl⟩ := toIdentifier_eq_ok_iff.mp named
  intro c member
  rw [String.toList_ofList] at member
  obtain ⟨segment,inside,member⟩ := List.mem_flatMap.mp member
  exact isAlphanum_capitalize (kebab segment inside).2 c member

/-- A stem is its segments, with a hyphen before each but the first. -/
theorem toList_of_segments {stem : String} {first : List Char} {others : List (List Char)}
    (cut : segments stem = first :: others) : stem.toList = first ++ others.flatMap ('-' :: ·) := by
  have whole : ['-'].intercalate (segments stem) = stem.toList := List.intercalate_splitOn '-'
  rw [← whole,cut]
  clear whole cut
  induction others generalizing first with
  | nil => simp [List.intercalate]
  | cons second others ih =>
    rw [List.intercalate_cons_cons,ih]
    simp

theorem forall_toList_iff {stem : String} {p : Char → Prop} (hyphen : p '-') :
    (∀ c ∈ stem.toList, p c) ↔ ∀ segment ∈ segments stem, ∀ c ∈ segment, p c := by
  obtain ⟨first,others,cut⟩ := List.exists_cons_of_ne_nil (List.splitOn_ne_nil '-' stem.toList)
  rw [toList_of_segments cut,segments,cut]
  simp only [List.forall_mem_append,List.forall_mem_flatMap,List.forall_mem_cons,hyphen,true_and]

theorem filter_toList {stem : String} (kebab : IsKebab stem) :
    stem.toList.filter (· != '-') = (segments stem).flatten := by
  have plain : ∀ segment ∈ segments stem, segment.filter (· != '-') = segment := by
    intro segment inside
    refine List.filter_eq_self.mpr fun c member => ?_
    have other : c ≠ '-' := fun hyphen => by simpa [hyphen] using (kebab segment inside).2 c member
    simpa using other
  have joined (others : List (List Char)) (plain : ∀ segment ∈ others, segment.filter (· != '-') = segment) :
      (others.flatMap ('-' :: ·)).filter (· != '-') = others.flatten := by
    induction others with
    | nil => rfl
    | cons segment others ih =>
      obtain ⟨here,there⟩ := List.forall_mem_cons.mp plain
      simp [here,ih there]
  obtain ⟨first,others,cut⟩ := List.exists_cons_of_ne_nil (List.splitOn_ne_nil '-' stem.toList)
  rw [← segments] at cut
  rw [cut] at plain
  obtain ⟨here,there⟩ := List.forall_mem_cons.mp plain
  rw [toList_of_segments cut,cut,List.filter_append,here,joined others there,List.flatten_cons]

theorem map_toLower_flatMap {segments : List (List Char)} (letters : ∀ segment ∈ segments, ∀ c ∈ segment, c.isAlphanum) :
    (segments.flatMap capitalize).map Char.toLower = segments.flatten.map Char.toLower := by
  induction segments with
  | nil => rfl
  | cons segment segments ih =>
    obtain ⟨here,there⟩ := List.forall_mem_cons.mp letters
    simp [map_toLower_capitalize here,ih there]

end InlineIcons.Stem
