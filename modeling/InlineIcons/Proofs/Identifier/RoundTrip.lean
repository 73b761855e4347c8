import InlineIcons.Proofs.Identifier.Words
import Mathlib.Data.List.Chain

/-! Stems that come back from their identifiers. An identifier shows the segments of its stem by capitals and
digits alone: runs of digits beside each other grow together, and so do single letters, which are then capitals
with no small letter behind them. -/
namespace InlineIcons.Stem

def IsLetters (segment : List Char) : Prop := ∀ c ∈ segment, c.isAlpha

def IsDigits (segment : List Char) : Prop := ∀ c ∈ segment, c.isDigit

instance (segment : List Char) : Decidable (IsLetters segment) := decidable_of_iff _ List.all_eq_true

instance (segment : List Char) : Decidable (IsDigits segment) := decidable_of_iff _ List.all_eq_true

/-- Segments that show where they end. -/
structure Told (segments : List (List Char)) : Prop where
  pure : ∀ segment ∈ segments, IsLetters segment ∨ IsDigits segment
  digits : segments.IsChain fun a b => ¬ (IsDigits a ∧ IsDigits b)
  letters : segments.IsChain fun a b => ¬ ((IsLetters a ∧ a.length = 1) ∧ IsLetters b ∧ b.length = 1)

/-- A stem without capitals whose segments show where they end. -/
structure Reversible (stem : String) : Prop extends Told (segments stem) where
  small : ∀ c ∈ stem.toList, c.isUpper = false

/-- A stem of words of two or more small letters, and of runs of digits that are not beside each other. -/
structure IsCanonical (stem : String) : Prop where
  segment : ∀ segment ∈ segments stem,
    (2 ≤ segment.length ∧ ∀ c ∈ segment, c.isLower) ∨ segment ≠ [] ∧ IsDigits segment
  apart : (segments stem).IsChain fun a b => ¬ (IsDigits a ∧ IsDigits b)

instance (segments : List (List Char)) : Decidable (Told segments) :=
  decidable_of_iff ((∀ segment ∈ segments, IsLetters segment ∨ IsDigits segment) ∧
      (segments.IsChain fun a b => ¬ (IsDigits a ∧ IsDigits b)) ∧
      segments.IsChain fun a b => ¬ ((IsLetters a ∧ a.length = 1) ∧ IsLetters b ∧ b.length = 1))
    ⟨fun ⟨pure,digits,letters⟩ => ⟨pure,digits,letters⟩,fun told => ⟨told.pure,told.digits,told.letters⟩⟩

instance (stem : String) : Decidable (Reversible stem) :=
  decidable_of_iff (Told (segments stem) ∧ stem.toList.all fun c => !c.isUpper)
    ⟨fun ⟨told,small⟩ => ⟨told,by simpa using small⟩,fun stem => ⟨stem.toTold,by simpa using stem.small⟩⟩

instance (stem : String) : Decidable (IsCanonical stem) :=
  decidable_of_iff ((∀ segment ∈ segments stem,
      (2 ≤ segment.length ∧ segment.all Char.isLower) ∨ segment ≠ [] ∧ IsDigits segment) ∧
      (segments stem).IsChain fun a b => ¬ (IsDigits a ∧ IsDigits b))
    ⟨fun ⟨segment,apart⟩ => ⟨by simpa using segment,apart⟩,fun stem => ⟨by simpa using stem.segment,stem.apart⟩⟩

theorem not_digit_of_isAlpha {c : Char} (letter : c.isAlpha) : c.isDigit = false := by
  rcases Bool.or_eq_true_iff.mp letter with capital | small
  · exact (Identifier.apart_of_isUpper capital).2
  · exact (Identifier.apart_of_isLower small).2

section Border

variable {c : Char} {cs : List Char} {segments : List (List Char)}

theorem exists_head (kebab : ∀ t ∈ segments, t ≠ [] ∧ ∀ d ∈ t, d.isAlphanum) {next : List Char}
    (here : next ∈ segments.head?) :
    ∃ e es, next = e :: es ∧ e.isAlphanum ∧ (segments.map capitalize).flatten.head? = some e.toUpper := by
  obtain ⟨more,rfl⟩ := List.head?_eq_some_iff.mp here
  obtain ⟨filled,letters⟩ := kebab next List.mem_cons_self
  obtain ⟨e,es,rfl⟩ := List.exists_cons_of_ne_nil filled
  exact ⟨e,es,rfl,letters e List.mem_cons_self,rfl⟩

/-- What follows a segment begins like the next one. -/
theorem head?_capitalized (kebab : ∀ t ∈ segments, t ≠ [] ∧ ∀ d ∈ t, d.isAlphanum) {d : Char}
    (first : d ∈ (segments.map capitalize).flatten.head?) :
    ∃ e es more, segments = (e :: es) :: more ∧ d = e.toUpper ∧ e.isAlphanum := by
  cases segments with
  | nil => simp at first
  | cons next more =>
    obtain ⟨e,es,rfl,letter,head⟩ := exists_head kebab rfl
    exact ⟨e,es,more,rfl,Option.some.inj (first.symm.trans head),letter⟩

theorem Told.cons {segment : List Char} (pure : IsLetters segment ∨ IsDigits segment)
    (digits : ∀ next ∈ segments.head?, ¬ (IsDigits segment ∧ IsDigits next))
    (letters : ∀ next ∈ segments.head?,
      ¬ ((IsLetters segment ∧ segment.length = 1) ∧ IsLetters next ∧ next.length = 1))
    (others : Told segments) : Told (segment :: segments) where
  pure := List.forall_mem_cons.mpr ⟨pure,others.pure⟩
  digits := List.isChain_cons.mpr ⟨digits,others.digits⟩
  letters := List.isChain_cons.mpr ⟨letters,others.letters⟩

theorem Told.tail {segment : List Char} (told : Told (segment :: segments)) : Told segments where
  pure := (List.forall_mem_cons.mp told.pure).2
  digits := told.digits.of_cons
  letters := told.letters.of_cons

/-- A letter by itself is a capital that no small letter follows, or one before a word. -/
theorem endsAt_letter (alpha : c.isAlpha) (kebab : ∀ t ∈ segments, t ≠ [] ∧ ∀ d ∈ t, d.isAlphanum)
    (told : Told ([c] :: segments)) : Identifier.EndsAt [c.toUpper] (segments.map capitalize).flatten := by
  have inside : ∀ d ∈ [c.toUpper], d.isUpper := by
    have letter : c.isAlphanum := by simp [Char.isAlphanum,alpha]
    simp [(toUpper_kinds letter).1,alpha]
  cases segments with
  | nil => exact .capitals (List.cons_ne_nil _ _) inside (by simp)
  | cons next more =>
    obtain ⟨filled,plain⟩ := kebab next List.mem_cons_self
    obtain ⟨e,es,rfl⟩ := List.exists_cons_of_ne_nil filled
    have first := toUpper_kinds (plain e List.mem_cons_self)
    rcases told.pure (e :: es) (by simp) with letters | digits
    · have several : es ≠ [] := by
        rintro rfl
        exact (List.isChain_cons_cons.mp told.letters).1 ⟨⟨by simpa [IsLetters] using alpha,rfl⟩,letters,rfl⟩
      obtain ⟨f,fs,rfl⟩ := List.exists_cons_of_ne_nil several
      have second := toLower_kinds (plain f (by simp))
      exact .beforeTitle (List.cons_ne_nil _ _) inside (first.1 ▸ letters e (by simp)) (second.1 ▸ letters f (by simp))
    · refine .capitals (List.cons_ne_nil _ _) inside fun d next => ?_
      obtain rfl : e.toUpper = d := by simpa [capitalize] using next
      exact ⟨(Identifier.apart_of_isDigit (first.2.2 ▸ digits e (by simp))).2,first.2.1⟩

theorem endsAt_of_told (letters : ∀ d ∈ c :: cs, d.isAlphanum)
    (kebab : ∀ t ∈ segments, t ≠ [] ∧ ∀ d ∈ t, d.isAlphanum) (told : Told ((c :: cs) :: segments)) :
    Identifier.EndsAt (capitalize (c :: cs)) (segments.map capitalize).flatten := by
  obtain ⟨first,others⟩ := List.forall_mem_cons.mp letters
  have upper := toUpper_kinds first
  rcases told.pure _ List.mem_cons_self with alpha | digit
  · obtain ⟨capital,small⟩ := List.forall_mem_cons.mp alpha
    by_cases single : cs = []
    · subst single
      exact endsAt_letter capital kebab told
    · refine .titled (upper.1 ▸ capital) (by simpa using single) (fun d member => ?_) fun d next => ?_
      · obtain ⟨e,inside,rfl⟩ := List.mem_map.mp member
        exact (toLower_kinds (others e inside)).1 ▸ small e inside
      · obtain ⟨e,_,_,-,rfl,letter⟩ := head?_capitalized kebab next
        exact (toUpper_kinds letter).2.1
  · obtain ⟨here,there⟩ := List.forall_mem_cons.mp digit
    refine .digits (List.cons_ne_nil _ _) (fun d member => ?_) fun d next => ?_
    · rcases List.mem_cons.mp member with rfl | member
      · exact upper.2.2 ▸ here
      · obtain ⟨e,inside,rfl⟩ := List.mem_map.mp member
        exact (toLower_kinds (others e inside)).2.2 ▸ there e inside
    · obtain ⟨e,es,more,rfl,rfl,letter⟩ := head?_capitalized kebab next
      have border : ¬ IsDigits (e :: es) := fun digits =>
        (List.isChain_cons_cons.mp told.digits).1 ⟨digit,digits⟩
      have alpha := (told.pure (e :: es) (by simp)).resolve_right border
      exact (toUpper_kinds letter).2.2.trans (not_digit_of_isAlpha (alpha e List.mem_cons_self))

theorem letter_of_capitals (letters : ∀ d ∈ c :: cs, d.isAlphanum)
    (capitals : ∀ d ∈ capitalize (c :: cs), d.isUpper) : cs = [] ∧ c.isAlpha := by
  obtain ⟨first,others⟩ := List.forall_mem_cons.mp letters
  obtain ⟨upper,lower⟩ := List.forall_mem_cons.mp capitals
  refine ⟨List.eq_nil_iff_forall_not_mem.mpr fun d member => ?_,(toUpper_kinds first).1 ▸ upper⟩
  have capital := lower d.toLower (List.mem_map_of_mem member)
  simp [(toLower_kinds (others d member)).2.1] at capital

theorem digits_of_capitalized (letters : ∀ d ∈ c :: cs, d.isAlphanum)
    (digits : ∀ d ∈ capitalize (c :: cs), d.isDigit) : IsDigits (c :: cs) := by
  obtain ⟨first,others⟩ := List.forall_mem_cons.mp letters
  obtain ⟨upper,lower⟩ := List.forall_mem_cons.mp digits
  refine List.forall_mem_cons.mpr ⟨(toUpper_kinds first).2.2 ▸ upper,fun d member => ?_⟩
  exact (toLower_kinds (others d member)).2.2 ▸ lower d.toLower (List.mem_map_of_mem member)

theorem told_of_endsAt (letters : ∀ d ∈ c :: cs, d.isAlphanum)
    (kebab : ∀ t ∈ segments, t ≠ [] ∧ ∀ d ∈ t, d.isAlphanum) (others : Told segments)
    (ends : Identifier.EndsAt (capitalize (c :: cs)) (segments.map capitalize).flatten) :
    Told ((c :: cs) :: segments) := by
  have first := letters c List.mem_cons_self
  have upper := toUpper_kinds first
  have apart : c.isAlpha → ∀ next ∈ segments.head?, ¬ (IsDigits (c :: cs) ∧ IsDigits next) := by
    intro alpha next _ both
    simpa [not_digit_of_isAlpha alpha] using both.1 c List.mem_cons_self
  generalize shown : capitalize (c :: cs) = w at ends
  generalize behind : (segments.map capitalize).flatten = rest at ends
  cases ends with
  | small filled inside =>
    have small := inside c.toUpper (by simp [← shown,capitalize])
    simp [upper.2.1] at small
  | digits filled inside stops =>
    have digits := digits_of_capitalized letters (shown ▸ inside)
    refine .cons (.inr digits) (fun next here both => ?_) (fun next here both => ?_) others
    · obtain ⟨e,es,rfl,letter,head⟩ := exists_head kebab here
      have other := stops e.toUpper (behind ▸ head)
      simp [(toUpper_kinds letter).2.2,both.2 e List.mem_cons_self] at other
    · have digit := digits c List.mem_cons_self
      simp [not_digit_of_isAlpha (both.1.1 c List.mem_cons_self)] at digit
  | titled capital filled inside stops =>
    obtain ⟨rfl,rfl⟩ := List.cons.inj shown
    have alpha : IsLetters (c :: cs) := by
      refine List.forall_mem_cons.mpr ⟨upper.1 ▸ capital,fun d member => ?_⟩
      exact (toLower_kinds (letters d (List.mem_cons_of_mem c member))).1 ▸ inside _ (List.mem_map_of_mem member)
    refine .cons (.inl alpha) (apart (alpha c List.mem_cons_self)) (fun next here both => ?_) others
    exact filled (by simpa using both.1.2)
  | capitals filled inside stops =>
    obtain ⟨rfl,alpha⟩ := letter_of_capitals letters (shown ▸ inside)
    refine .cons (.inl (by simpa [IsLetters] using alpha)) (apart alpha) (fun next here both => ?_) others
    obtain ⟨e,es,rfl,letter,head⟩ := exists_head kebab here
    have other := (stops e.toUpper (behind ▸ head)).1
    simp [(toUpper_kinds letter).1,both.2.1 e List.mem_cons_self] at other
  | @beforeTitle _ _ _ d filled inside capital small =>
    obtain ⟨rfl,alpha⟩ := letter_of_capitals letters (shown ▸ inside)
    refine .cons (.inl (by simpa [IsLetters] using alpha)) (apart alpha) (fun next here both => ?_) others
    obtain ⟨more,rfl⟩ := List.head?_eq_some_iff.mp here
    obtain ⟨e,rfl⟩ := List.length_eq_one_iff.mp both.2.2
    -- Behind one letter comes the first character of a segment, which is not small.
    have second : (more.map capitalize).flatten = _ := (List.cons.inj behind).2
    obtain ⟨f,_,_,-,rfl,letter⟩ := head?_capitalized (List.forall_mem_cons.mp kebab).2 (d := d) (by simp [second])
    simp [(toUpper_kinds letter).2.1] at small

end Border

theorem parted_iff_told {segments : List (List Char)} (kebab : ∀ t ∈ segments, t ≠ [] ∧ ∀ d ∈ t, d.isAlphanum) :
    Identifier.Parted (segments.map capitalize) ↔ Told segments := by
  induction segments with
  | nil => exact ⟨fun _ => ⟨by simp,.nil,.nil⟩,fun _ => .nil⟩
  | cons segment segments ih =>
    obtain ⟨⟨filled,letters⟩,others⟩ := List.forall_mem_cons.mp kebab
    obtain ⟨c,cs,rfl⟩ := List.exists_cons_of_ne_nil filled
    constructor
    · intro parted
      cases parted with
      | cons ends rest => exact told_of_endsAt letters others ((ih others).mp rest) ends
    · intro told
      exact .cons (endsAt_of_told letters others told) ((ih others).mpr told.tail)

/-- The words of an identifier that a stem led to are its segments, or else the suggested stem is another one. -/
theorem toStem?_of_toIdentifier_iff {stem identifier : String} (named : toIdentifier stem = .ok identifier) :
    Identifier.toStem? identifier = some stem ↔ Reversible stem := by
  obtain ⟨kebab,rfl⟩ := toIdentifier_eq_ok_iff.mp named
  have parted := parted_iff_told kebab
  rw [Identifier.toStem?_eq_some_iff,String.toList_ofList]
  constructor
  · rintro ⟨ws,found,same⟩
    obtain ⟨whole,ends⟩ := Identifier.words?_eq_some_iff.mp found
    -- Capitalizing keeps lengths, so it gives back every word by itself.
    have back : ∀ w ∈ ws, capitalize (w.map Char.toLower) = w := by
      apply (Identifier.flatMap_eq_flatten_iff Identifier.length_capitalize_toLower ws).mp
      rw [whole,same,List.flatMap_map]
    have words : (segments stem).map capitalize = ws := by
      rw [same,List.map_map]
      exact (List.map_congr_left back).trans (List.map_id ws)
    refine ⟨parted.mp (words ▸ ends),(forall_toList_iff (by decide)).mpr fun segment inside c member => ?_⟩
    obtain ⟨w,known,rfl⟩ := List.mem_map.mp (same ▸ inside)
    obtain ⟨d,own,rfl⟩ := List.mem_map.mp member
    exact (toLower_kinds ((ends.isWord w known).isAlphanum d own)).2.1
  · intro reversible
    refine ⟨(segments stem).map capitalize,Identifier.words?_eq_some_iff.mpr ⟨rfl,parted.mpr reversible.toTold⟩,?_⟩
    have small := (forall_toList_iff (by decide)).mp reversible.small
    rw [List.map_map]
    refine ((List.map_congr_left fun segment inside => ?_).trans (List.map_id _)).symm
    have letters := (kebab segment inside).2
    have kept : segment.map Char.toLower = segment.map id := List.map_congr_left fun c member =>
      (toLower_eq_self_iff (letters c member)).mpr (small segment inside c member)
    rw [Function.comp_apply,map_toLower_capitalize letters,kept,List.map_id,id]

theorem IsCanonical.kebab {stem : String} (canonical : IsCanonical stem) : IsKebab stem := by
  intro segment inside
  rcases canonical.segment segment inside with ⟨several,small⟩ | ⟨filled,digits⟩
  · refine ⟨List.ne_nil_of_length_pos (by omega),fun c member => ?_⟩
    simp [Char.isAlphanum,isAlpha_eq,small c member]
  · refine ⟨filled,fun c member => ?_⟩
    simp [Char.isAlphanum,digits c member]

theorem IsCanonical.reversible {stem : String} (canonical : IsCanonical stem) : Reversible stem where
  pure := fun segment inside => (canonical.segment segment inside).imp
    (fun word c member => by simp [isAlpha_eq,word.2 c member]) And.right
  digits := canonical.apart
  letters := by
    refine List.isChain_iff_forall_rel_of_append_cons_cons.mpr fun a b before after cut both => ?_
    rcases canonical.segment a (by simp [cut]) with word | ⟨filled,digits⟩
    · have := word.1
      omega
    · obtain ⟨c,rfl⟩ := List.length_eq_one_iff.mp both.1.2
      have digit := digits c (by simp)
      simp [not_digit_of_isAlpha (both.1.1 c (by simp))] at digit
  small := (forall_toList_iff (by decide)).mpr fun segment inside c member => by
    rcases canonical.segment segment inside with word | digits
    · exact (Identifier.apart_of_isLower (word.2 c member)).1
    · exact (Identifier.apart_of_isDigit (digits.2 c member)).2

/-- An accepted stem comes back from its identifier just if it has no capital, every segment is made of letters or of
digits, and no two runs of digits and no two single letters are beside each other. Canonical stems are accepted
and come back. -/
theorem comesBack_iff (stem : String) :
    (∀ identifier, toIdentifier stem = .ok identifier →
      (Identifier.toStem? identifier = some stem ↔ Reversible stem)) ∧
    (IsCanonical stem →
      ∃ identifier, toIdentifier stem = .ok identifier ∧ Identifier.toStem? identifier = some stem) := by
  refine ⟨fun identifier => toStem?_of_toIdentifier_iff,fun canonical => ?_⟩
  have named := toIdentifier_of_kebab canonical.kebab
  exact ⟨_,named,(toStem?_of_toIdentifier_iff named).mpr canonical.reversible⟩

theorem comesBack_hyphenated :
    toIdentifier "x-ray-2-go" = .ok "XRay2Go" ∧ Reversible "x-ray-2-go" ∧
      Identifier.toStem? "XRay2Go" = some "x-ray-2-go" ∧ IsCanonical "grid-2-col" ∧
      ∃ identifier, toIdentifier "grid-2-col" = .ok identifier ∧ Identifier.toStem? identifier = some "grid-2-col" := by
  have named : toIdentifier "x-ray-2-go" = .ok "XRay2Go" := by decide +kernel
  have reversible : Reversible "x-ray-2-go" := by decide +kernel
  have canonical : IsCanonical "grid-2-col" := by decide +kernel
  exact ⟨named,reversible,((comesBack_iff "x-ray-2-go").1 _ named).mpr reversible,canonical,
    (comesBack_iff "grid-2-col").2 canonical⟩

example : ¬ Reversible "a-b" ∧ ¬ Reversible "4-2" ∧ ¬ Reversible "grid2" ∧ ¬ Reversible "Home" := by decide +kernel

end InlineIcons.Stem
