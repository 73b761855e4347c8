import InlineIcons.Proofs.Identifier.Boundary

/-! The words of an identifier are cut out without loss. The stem that they suggest leads back to the identifier
just where every word is one that capitalizing gives, since no change of case alters a length. -/
namespace InlineIcons.Identifier

/-- What a word is: characters of one kind, or a capital with small letters. -/
def IsWord (w : List Char) : Prop :=
  w ≠ [] ∧ ((∃ kind ∈ [Char.isLower,Char.isDigit,Char.isUpper], ∀ c ∈ w, kind c) ∨
    ∃ c cs, w = c :: cs ∧ c.isUpper ∧ ∀ d ∈ cs, d.isLower)

theorem EndsAt.isWord {w rest : List Char} (ends : EndsAt w rest) : IsWord w := by
  cases ends with
  | small filled inside => exact ⟨filled,.inl ⟨Char.isLower,by simp,inside⟩⟩
  | digits filled inside => exact ⟨filled,.inl ⟨Char.isDigit,by simp,inside⟩⟩
  | titled capital filled inside => exact ⟨List.cons_ne_nil _ _,.inr ⟨_,_,rfl,capital,inside⟩⟩
  | capitals filled inside => exact ⟨filled,.inl ⟨Char.isUpper,by simp,inside⟩⟩
  | beforeTitle filled inside => exact ⟨filled,.inl ⟨Char.isUpper,by simp,inside⟩⟩

theorem Parted.isWord {ws : List (List Char)} (parted : Parted ws) : ∀ w ∈ ws, IsWord w := by
  induction parted with
  | nil => simp
  | cons ends _ ih => exact List.forall_mem_cons.mpr ⟨ends.isWord,ih⟩

theorem IsWord.isAlphanum {w : List Char} (word : IsWord w) : ∀ c ∈ w, c.isAlphanum := by
  have kinds : ∀ kind ∈ [Char.isLower,Char.isDigit,Char.isUpper], ∀ c : Char, kind c → c.isAlphanum := by
    have parts : ∀ c : Char, c.isAlphanum = (c.isUpper || c.isLower || c.isDigit) := fun _ => rfl
    simp only [List.forall_mem_cons,parts]
    simp +contextual
  obtain ⟨_,⟨kind,known,all⟩ | ⟨c,cs,rfl,capital,small⟩⟩ := word
  · exact fun c member => kinds kind known c (all c member)
  · intro d member
    rcases List.mem_cons.mp member with rfl | member
    · exact kinds Char.isUpper (by simp) d capital
    · exact kinds Char.isLower (by simp) d (small d member)

theorem flatten_words? {cs : List Char} {ws : List (List Char)} (found : words? cs = some ws) :
    ws.flatten = cs ∧ ∀ w ∈ ws, IsWord w := by
  obtain ⟨whole,parted⟩ := words?_eq_some_iff.mp found
  exact ⟨whole,parted.isWord⟩

/-- No word begins with a small letter or has a capital after its first character: so `LayoutList` and `Grid2`,
but not `home`, `IO` or `Grid2x`. -/
def Titled (identifier : String) : Prop :=
  ∀ ws, words? identifier.toList = some ws → ∀ w ∈ ws,
    (∀ c ∈ w.head?, c.isLower = false) ∧ ∀ c ∈ w.tail, c.isUpper = false

instance (identifier : String) : Decidable (Titled identifier) :=
  match found : words? identifier.toList with
  | none => isTrue (by simp [Titled,found])
  | some ws =>
    decidable_of_iff (ws.all fun w => w.head?.all (!·.isLower) && w.tail.all (!·.isUpper))
      (by simp [Titled,found,Option.all_eq_true])

theorem toUpper_toLower_eq_iff {c : Char} (letter : c.isAlphanum) : c.toLower.toUpper = c ↔ c.isLower = false :=
  Stem.forall_isAlphanum (p := fun c => c.toLower.toUpper = c ↔ c.isLower = false) (by decide) letter

theorem toLower_toLower_eq_iff {c : Char} (letter : c.isAlphanum) : c.toLower.toLower = c ↔ c.isUpper = false :=
  Stem.forall_isAlphanum (p := fun c => c.toLower.toLower = c ↔ c.isUpper = false) (by decide) letter

theorem capitalize_toLower_eq_iff {w : List Char} (letters : ∀ c ∈ w, c.isAlphanum) :
    Stem.capitalize (w.map Char.toLower) = w ↔
      (∀ c ∈ w.head?, c.isLower = false) ∧ ∀ c ∈ w.tail, c.isUpper = false := by
  cases w with
  | nil => simp [Stem.capitalize]
  | cons c cs =>
    obtain ⟨first,others⟩ := List.forall_mem_cons.mp letters
    have rest : (cs.map Char.toLower).map Char.toLower = cs ↔ ∀ d ∈ cs, d.isUpper = false := by
      have fixed : cs.map (Char.toLower ∘ Char.toLower) = cs.map id ↔ ∀ d ∈ cs, d.toLower.toLower = d :=
        List.map_inj_left
      rw [List.map_map,← forall₂_congr fun d member => toLower_toLower_eq_iff (others d member),← fixed,List.map_id]
    simp only [List.map_cons,Stem.capitalize,List.cons.injEq,toUpper_toLower_eq_iff first,rest,List.head?_cons,
      Option.mem_some_iff,forall_eq',List.tail_cons]

theorem flatMap_eq_flatten_iff {α : Type} {f : List α → List α} (level : ∀ l, (f l).length = l.length)
    (ls : List (List α)) : ls.flatMap f = ls.flatten ↔ ∀ l ∈ ls, f l = l := by
  induction ls with
  | nil => simp
  | cons l ls ih =>
    rw [List.flatMap_cons,List.flatten_cons,List.forall_mem_cons,← ih]
    constructor
    · exact fun same => List.append_inj same (level l)
    · rintro ⟨first,others⟩
      rw [first,others]

theorem length_capitalize_toLower (w : List Char) : (Stem.capitalize (w.map Char.toLower)).length = w.length := by
  cases w <;> simp [Stem.capitalize]

theorem toList_join (ws : List (List Char)) :
    ("-".intercalate (ws.map fun w => String.ofList (w.map Char.toLower))).toList =
      ['-'].intercalate (ws.map (List.map Char.toLower)) := by
  have texts : (ws.map fun w => String.ofList (w.map Char.toLower)).map String.toList =
      ws.map (List.map Char.toLower) := by
    rw [List.map_map]
    exact List.map_congr_left fun w _ => String.toList_ofList
  rw [String.toList_intercalate,texts]
  rfl

/-- The segments of a suggested stem are the words in lower case. -/
theorem toStem?_eq_some_iff {identifier stem : String} : toStem? identifier = some stem ↔
    ∃ ws, words? identifier.toList = some ws ∧ Stem.segments stem = ws.map (List.map Char.toLower) := by
  constructor
  · intro suggested
    unfold toStem? at suggested
    split at suggested
    · cases suggested
    · next filled =>
      obtain ⟨ws,found,rfl⟩ := Option.map_eq_some_iff.mp suggested
      obtain ⟨whole,words⟩ := flatten_words? found
      have some : ws ≠ [] := by
        rintro rfl
        rw [List.flatten_nil] at whole
        exact filled (by rw [String.isEmpty_iff,← String.toList_eq_nil_iff,← whole])
      have single : ∀ segment ∈ ws.map (List.map Char.toLower), '-' ∉ segment :=
        List.forall_mem_map.mpr fun w inside => Stem.hyphen_not_mem_lower (words w inside).isAlphanum
      refine ⟨ws,found,?_⟩
      rw [Stem.segments,toList_join]
      exact List.splitOn_intercalate '-' single (by simpa using some)
  · rintro ⟨ws,found,same⟩
    have filled : identifier.isEmpty = false := by
      rw [Bool.eq_false_iff]
      intro bare
      obtain rfl : [] = ws := by simpa [String.isEmpty_iff.mp bare,words?] using found
      exact List.splitOn_ne_nil '-' stem.toList same
    have back : "-".intercalate (ws.map fun w => String.ofList (w.map Char.toLower)) = stem := by
      apply String.toList_inj.mp
      rw [toList_join,← same]
      exact List.intercalate_splitOn '-'
    simp [toStem?,filled,found,back]

/-- A suggested stem leads to an identifier, which need not be the one that suggested it. -/
theorem toIdentifier_of_toStem? {identifier stem : String} (suggested : toStem? identifier = some stem) :
    Stem.IsKebab stem ∧ (Stem.toIdentifier stem = .ok identifier ↔ Titled identifier) := by
  obtain ⟨ws,found,segments⟩ := toStem?_eq_some_iff.mp suggested
  obtain ⟨whole,words⟩ := flatten_words? found
  have kebab : Stem.IsKebab stem := by
    rw [Stem.IsKebab,segments]
    intro segment member
    obtain ⟨w,inside,rfl⟩ := List.mem_map.mp member
    refine ⟨by simpa using (words w inside).1,fun c letter => ?_⟩
    obtain ⟨d,own,rfl⟩ := List.mem_map.mp letter
    exact (Stem.isAlphanum_cased ((words w inside).isAlphanum d own)).2
  refine ⟨kebab,?_⟩
  have titled : Titled identifier ↔ ∀ w ∈ ws, Stem.capitalize (w.map Char.toLower) = w := by
    rw [Titled,found]
    simp only [Option.some.injEq,forall_eq']
    exact forall₂_congr fun w inside => (capitalize_toLower_eq_iff (words w inside).isAlphanum).symm
  rw [titled,← flatMap_eq_flatten_iff length_capitalize_toLower,whole,Stem.toIdentifier_of_kebab kebab,segments,
    List.flatMap_map]
  simp only [Except.ok.injEq]
  rw [← String.toList_inj,String.toList_ofList]

example : toStem? "IO" = some "io" ∧ Stem.toIdentifier "io" = .ok "Io" ∧ ¬ Titled "IO" := by decide +kernel

end InlineIcons.Identifier
