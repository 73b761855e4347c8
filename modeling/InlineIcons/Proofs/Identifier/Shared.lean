import InlineIcons.Proofs.Identifier.Boundary

/-! Which stems are accepted, what is wrong with the others, and which stems lead to the same identifier: those that
become one text when case is dropped and hyphens before digits are left out. An identifier shows where a segment
begins by a capital, so with a hyphen put before every capital it is that text again. -/
namespace InlineIcons.Stem

/-- What is wrong with a segment that has some others before it. -/
inductive IsFault (stem : String) (index : Nat) : List Char → StemError → Prop
  | empty : IsFault stem index [] (.emptySegment stem index)
  | character {before after : List Char} {c : Char} (plain : ∀ d ∈ before, d.isAlphanum)
      (other : c.isAlphanum = false) : IsFault stem index (before ++ c :: after) (.invalidCharacter stem c)

theorem segmentFault?_eq_some_iff {stem : String} {index : Nat} {segment : List Char} {e : StemError} :
    segmentFault? stem index segment = some e ↔ IsFault stem index segment e := by
  constructor
  · intro found
    unfold segmentFault? at found
    split at found
    · next bare =>
      obtain rfl := Option.some.inj found
      obtain rfl := List.isEmpty_iff.mp bare
      exact .empty
    · obtain ⟨c,first,rfl⟩ := Option.map_eq_some_iff.mp found
      obtain ⟨other,before,after,rfl,plain⟩ := List.find?_eq_some_iff_append.mp first
      exact .character (by simpa using plain) (by simpa using other)
  · intro fault
    cases fault with
    | empty => rfl
    | @character before after c plain other =>
      have first : (before ++ c :: after).find? (fun d => !d.isAlphanum) = some c :=
        List.find?_eq_some_iff_append.mpr ⟨by simp [other],before,after,rfl,by simpa using plain⟩
      simp [segmentFault?,first]

/-- The fault is that of the first segment that has one. -/
theorem fault?_eq_some_iff {stem : String} {segments : List (List Char)} {index : Nat} {e : StemError} :
    fault? stem index segments = some e ↔ ∃ before segment after, segments = before ++ segment :: after ∧
      (∀ s ∈ before, s ≠ [] ∧ ∀ c ∈ s, c.isAlphanum) ∧ IsFault stem (index + before.length) segment e := by
  induction segments generalizing index with
  | nil => simp [fault?]
  | cons segment segments ih =>
    rw [fault?,Option.or_eq_some_iff,segmentFault?_eq_some_iff,segmentFault?_eq_none_iff,ih]
    constructor
    · rintro (fault | ⟨plain,before,other,after,rfl,others,fault⟩)
      · exact ⟨[],segment,segments,rfl,by simp,fault⟩
      · refine ⟨segment :: before,other,after,rfl,List.forall_mem_cons.mpr ⟨plain,others⟩,?_⟩
        rwa [List.length_cons,Nat.add_comm before.length,← Nat.add_assoc]
    · rintro ⟨before,other,after,cut,plain,fault⟩
      cases before with
      | nil =>
        obtain ⟨rfl,rfl⟩ := List.cons.inj cut
        exact .inl fault
      | cons first before =>
        obtain ⟨rfl,rfl⟩ := List.cons.inj cut
        obtain ⟨here,there⟩ := List.forall_mem_cons.mp plain
        refine .inr ⟨here,before,other,after,rfl,there,?_⟩
        rwa [List.length_cons,Nat.add_comm before.length,← Nat.add_assoc] at fault

theorem toIdentifier_eq_error_iff {stem : String} {e : StemError} :
    toIdentifier stem = .error e ↔ stem = "" ∧ e = .empty ∨ stem ≠ "" ∧ fault? stem 0 (segments stem) = some e := by
  unfold toIdentifier
  split
  · next bare => simp [String.isEmpty_iff.mp bare,eq_comm]
  · next filled =>
    have some : stem ≠ "" := fun bare => filled (by rw [bare]; rfl)
    split
    · next f found => simp [some,found]
    · next none => simp [some,none]

/-- A text without the hyphens that stand before a digit. -/
def dropHyphens : List Char → List Char
  | [] => []
  | c :: cs => if c = '-' ∧ cs.head?.any Char.isDigit then dropHyphens cs else c :: dropHyphens cs

/-- What a stem shows of itself in its identifier. -/
def folded (stem : String) : List Char := dropHyphens (stem.toList.map Char.toLower)

/-- A capital stands for a small letter with a hyphen before it. -/
def spread (c : Char) : List Char := if c.isUpper then ['-',c.toLower] else [c]

def mark (segment : List Char) : List Char := if segment.head?.any Char.isAlpha then ['-'] else []

theorem dropHyphens_of_plain {cs : List Char} (plain : '-' ∉ cs) (rest : List Char) :
    dropHyphens (cs ++ rest) = cs ++ dropHyphens rest := by
  induction cs with
  | nil => rfl
  | cons c cs ih =>
    simp only [List.mem_cons,not_or] at plain
    simp [dropHyphens,Ne.symm plain.1,ih plain.2]

theorem spread_cased {c : Char} (letter : c.isAlphanum) :
    spread c.toUpper = mark [c] ++ [c.toLower] ∧ spread c.toLower = [c.toLower] :=
  forall_isAlphanum (p := fun c => spread c.toUpper = mark [c] ++ [c.toLower] ∧ spread c.toLower = [c.toLower])
    (by decide) letter

theorem spread_segment {segment : List Char} (letters : ∀ c ∈ segment, c.isAlphanum) :
    (capitalize segment).flatMap spread = mark segment ++ segment.map Char.toLower := by
  have small (cs : List Char) (letters : ∀ c ∈ cs, c.isAlphanum) :
      (cs.map Char.toLower).flatMap spread = cs.map Char.toLower := by
    induction cs with
    | nil => rfl
    | cons c cs ih =>
      obtain ⟨first,others⟩ := List.forall_mem_cons.mp letters
      simp [(spread_cased first).2,ih others]
  cases segment with
  | nil => rfl
  | cons c cs =>
    obtain ⟨first,others⟩ := List.forall_mem_cons.mp letters
    rw [capitalize,List.flatMap_cons,(spread_cased first).1,small cs others,List.append_assoc]
    rfl

/-- A hyphen stays before a letter and goes before a digit. -/
theorem dropHyphens_joined {others : List (List Char)} (kebab : ∀ t ∈ others, t ≠ [] ∧ ∀ c ∈ t, c.isAlphanum) :
    dropHyphens ((others.flatMap ('-' :: ·)).map Char.toLower) =
      others.flatMap fun t => mark t ++ t.map Char.toLower := by
  induction others with
  | nil => rfl
  | cons t others ih =>
    obtain ⟨⟨filled,letters⟩,rest⟩ := List.forall_mem_cons.mp kebab
    obtain ⟨c,cs,rfl⟩ := List.exists_cons_of_ne_nil filled
    have plain := hyphen_not_mem_lower letters
    have kinds := (toLower_kinds (letters c List.mem_cons_self)).2.2
    have cut := dropHyphens_of_plain plain ((others.flatMap ('-' :: ·)).map Char.toLower)
    rw [ih rest] at cut
    have hyphen : '-'.toLower = '-' := by decide
    rw [List.flatMap_cons,List.map_append,List.map_cons,hyphen,List.cons_append,dropHyphens,cut,List.flatMap_cons]
    by_cases digit : c.isDigit
    · simp [mark,kinds,digit,Identifier.apart_of_isDigit digit,isAlpha_eq]
    · have alpha : c.isAlpha := by
        simpa [Char.isAlphanum,digit] using letters c List.mem_cons_self
      simp [mark,kinds,digit,alpha]

theorem spread_segments {segments : List (List Char)} (letters : ∀ t ∈ segments, ∀ c ∈ t, c.isAlphanum) :
    (segments.flatMap capitalize).flatMap spread = segments.flatMap fun t => mark t ++ t.map Char.toLower := by
  induction segments with
  | nil => rfl
  | cons t segments ih =>
    obtain ⟨here,there⟩ := List.forall_mem_cons.mp letters
    rw [List.flatMap_cons,List.flatMap_append,spread_segment here,ih there,List.flatMap_cons]

/-- A folded stem begins as the stem does, and goes on with a hyphen before each segment that begins with a letter. -/
theorem folded_eq {stem : String} (kebab : IsKebab stem) : ∃ c cs others, segments stem = (c :: cs) :: others ∧
    folded stem = c.toLower :: (cs.map Char.toLower ++ others.flatMap fun t => mark t ++ t.map Char.toLower) := by
  obtain ⟨first,others,cut⟩ := List.exists_cons_of_ne_nil (List.splitOn_ne_nil '-' stem.toList)
  rw [← segments] at cut
  rw [IsKebab,cut] at kebab
  obtain ⟨⟨filled,plain⟩,rest⟩ := List.forall_mem_cons.mp kebab
  obtain ⟨c,cs,rfl⟩ := List.exists_cons_of_ne_nil filled
  refine ⟨c,cs,others,cut,?_⟩
  rw [folded,toList_of_segments cut,List.map_append,dropHyphens_of_plain (hyphen_not_mem_lower plain),
    dropHyphens_joined rest]
  rfl

/-- With a hyphen before every capital, an identifier is its folded stem again. -/
theorem spread_identifier {stem : String} (kebab : IsKebab stem) :
    ((segments stem).flatMap capitalize).flatMap spread = mark (folded stem) ++ folded stem := by
  obtain ⟨c,cs,others,cut,whole⟩ := folded_eq kebab
  have begins : mark (folded stem) = mark (c :: cs) := by
    have letter : c.isAlphanum := (kebab (c :: cs) (by simp [cut])).2 c List.mem_cons_self
    have same : c.toLower.isAlpha = c.isAlpha :=
      forall_isAlphanum (p := fun c => c.toLower.isAlpha = c.isAlpha) (by decide) letter
    rw [whole,mark,mark,List.head?_cons,List.head?_cons,Option.any_some,Option.any_some,same]
  rw [spread_segments fun t inside => (kebab t inside).2,begins,whole,cut]
  simp

/-- The text that `spread` came from: a hyphen tells a capital. -/
def gather : List Char → List Char
  | [] => []
  | '-' :: c :: cs => c.toUpper :: gather cs
  | c :: cs => c :: gather cs

theorem gather_spread {cs : List Char} (letters : ∀ c ∈ cs, c.isAlphanum) : gather (cs.flatMap spread) = cs := by
  induction cs with
  | nil => rfl
  | cons c cs ih =>
    obtain ⟨first,others⟩ := List.forall_mem_cons.mp letters
    by_cases capital : c.isUpper
    · have back : c.toLower.toUpper = c :=
        forall_isAlphanum (p := fun c => c.isUpper → c.toLower.toUpper = c) (by decide) first capital
      simp [spread,capital,gather,back,ih others]
    · have other : c ≠ '-' := fun hyphen => by simp [hyphen] at first
      simp [spread,capital,gather,other,ih others]

/-- A folded stem begins with a letter or digit, so the hyphen that marks it can be told. -/
theorem dropWhile_mark {stem : String} (kebab : IsKebab stem) :
    (mark (folded stem) ++ folded stem).dropWhile (· == '-') = folded stem := by
  apply Identifier.dropWhile_run
  · intro c member
    unfold mark at member
    split at member <;> simp_all
  · intro d first
    obtain ⟨c,cs,others,cut,whole⟩ := folded_eq kebab
    obtain rfl : c.toLower = d := by simpa [whole] using first
    have letter := (isAlphanum_cased ((kebab (c :: cs) (by simp [cut])).2 c List.mem_cons_self)).2
    simpa using fun hyphen : c.toLower = '-' => by simp [hyphen] at letter

theorem eq_iff_folded_eq {stem other identifier identifier' : String} (named : toIdentifier stem = .ok identifier)
    (named' : toIdentifier other = .ok identifier') : identifier = identifier' ↔ folded stem = folded other := by
  have letters := isAlphanum_of_toIdentifier named
  have letters' := isAlphanum_of_toIdentifier named'
  obtain ⟨kebab,rfl⟩ := toIdentifier_eq_ok_iff.mp named
  obtain ⟨kebab',rfl⟩ := toIdentifier_eq_ok_iff.mp named'
  rw [String.toList_ofList] at letters letters'
  rw [← String.toList_inj,String.toList_ofList,String.toList_ofList]
  constructor
  · intro same
    rw [← dropWhile_mark kebab,← spread_identifier kebab,same,spread_identifier kebab',dropWhile_mark kebab']
  · intro same
    rw [← gather_spread letters,spread_identifier kebab,same,← spread_identifier kebab',gather_spread letters']

theorem exists_identifier_iff {stem : String} : (∃ identifier, toIdentifier stem = .ok identifier) ↔
    ∃ runs, runs ≠ [] ∧ (∀ run ∈ runs, run ≠ [] ∧ ∀ c ∈ run, c.isAlphanum) ∧ ['-'].intercalate runs = stem.toList := by
  constructor
  · rintro ⟨identifier,named⟩
    exact ⟨segments stem,List.splitOn_ne_nil '-' stem.toList,(toIdentifier_eq_ok_iff.mp named).1,
      List.intercalate_splitOn '-'⟩
  · rintro ⟨runs,some,kebab,whole⟩
    have single : ∀ run ∈ runs, '-' ∉ run := by
      intro run inside hyphen
      simpa using (kebab run inside).2 '-' hyphen
    have cut : segments stem = runs := by
      rw [segments,← whole]
      exact List.splitOn_intercalate '-' single some
    exact ⟨_,toIdentifier_of_kebab (by rw [IsKebab,cut]; exact kebab)⟩

/-- Accepted are the stems of one or more runs of letters and digits with single hyphens between them; the others, the
empty one aside, are refused for the fault of the leftmost segment that has one. Two accepted stems lead to one
identifier just if they are the same in lower case and without the hyphens before digits. -/
theorem accepted_and_shared (stem other : String) :
    ((∃ identifier, toIdentifier stem = .ok identifier) ↔ ∃ runs, runs ≠ [] ∧
      (∀ run ∈ runs, run ≠ [] ∧ ∀ c ∈ run, c.isAlphanum) ∧ ['-'].intercalate runs = stem.toList) ∧
    (∀ e, toIdentifier stem = .error e ↔ stem = "" ∧ e = .empty ∨ stem ≠ "" ∧ ∃ before segment after,
      segments stem = before ++ segment :: after ∧ (∀ s ∈ before, s ≠ [] ∧ ∀ c ∈ s, c.isAlphanum) ∧
      IsFault stem before.length segment e) ∧
    ∀ identifier identifier', toIdentifier stem = .ok identifier → toIdentifier other = .ok identifier' →
      (identifier = identifier' ↔ folded stem = folded other) := by
  refine ⟨exists_identifier_iff,fun e => ?_,fun _ _ => eq_iff_folded_eq⟩
  rw [toIdentifier_eq_error_iff,fault?_eq_some_iff]
  simp only [Nat.zero_add]

theorem shared_numbered : toIdentifier "Grid-2-col" = .ok "Grid2Col" ∧ toIdentifier "grid2-COL" = .ok "Grid2Col" ∧
    folded "Grid-2-col" = folded "grid2-COL" := by
  have named : toIdentifier "Grid-2-col" = .ok "Grid2Col" := by decide +kernel
  have named' : toIdentifier "grid2-COL" = .ok "Grid2Col" := by decide +kernel
  exact ⟨named,named',((accepted_and_shared "Grid-2-col" "grid2-COL").2.2 _ _ named named').mp rfl⟩

example : toIdentifier "a--b_c" = .error (.emptySegment "a--b_c" 1) := by decide +kernel

end InlineIcons.Stem
