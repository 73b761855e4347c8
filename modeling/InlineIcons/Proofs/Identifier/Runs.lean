import InlineIcons.Proofs.Identifier.Words
import Mathlib.Data.List.DropRight

/-! Which identifiers come back from the stems that they suggest, told by the runs of small letters and of capitals
in them. What a run must be followed or preceded by is the same as what two characters beside each other allow,
and in that form it is kept from word to word. -/
namespace InlineIcons.Identifier

/-- A part of a text that is of one kind and as long as it can be. -/
structure IsRun (kind : Char → Bool) (before run after : List Char) : Prop where
  filled : run ≠ []
  inside : ∀ c ∈ run, kind c
  left : ∀ c ∈ before.getLast?, kind c = false
  right : ∀ c ∈ after.head?, kind c = false

/-- Small letters follow a capital, and capitals stand alone, or as two before a small letter. -/
structure InTitleCase (cs : List Char) : Prop where
  small : ∀ before run after, before ++ run ++ after = cs → IsRun Char.isLower before run after →
    ∃ c ∈ before.getLast?, c.isUpper
  capitals : ∀ before run after, before ++ run ++ after = cs → IsRun Char.isUpper before run after →
    run.length = 1 ∨ run.length = 2 ∧ ∃ c ∈ after.head?, c.isLower

/-- The same, told by characters beside each other. -/
structure Stepwise (cs : List Char) : Prop where
  small : ∀ before c after, before ++ c :: after = cs → c.isLower → ∃ b ∈ before.getLast?, b.isAlpha
  capitals : ∀ before c d after, before ++ c :: d :: after = cs → c.isUpper → d.isUpper → ∃ e ∈ after.head?, e.isLower

theorem exists_run (kind : Char → Bool) (before after : List Char) {part : List Char} (filled : part ≠ [])
    (inside : ∀ c ∈ part, kind c) : ∃ before' left right after', before = before' ++ left ∧ after = right ++ after' ∧
      IsRun kind before' (left ++ part ++ right) after' := by
  refine ⟨before.rdropWhile kind,before.rtakeWhile kind,after.takeWhile kind,after.dropWhile kind,
    List.rdropWhile_append_rtakeWhile.symm,List.takeWhile_append_dropWhile.symm,by simp [filled],?_,?_,
    stops_dropWhile kind after⟩
  · intro c member
    rcases List.mem_append.mp member with member | member
    · rcases List.mem_append.mp member with member | member
      · exact List.mem_rtakeWhile_imp member
      · exact inside c member
    · exact List.mem_takeWhile_imp member
  · intro c last
    obtain ⟨more,cut⟩ := List.getLast?_eq_some_iff.mp last
    have some : before.rdropWhile kind ≠ [] := by simp [cut]
    simpa [cut] using List.rdropWhile_last_not kind before some

theorem InTitleCase.stepwise {cs : List Char} (title : InTitleCase cs) : Stepwise cs := by
  constructor
  · rintro before c after rfl small
    obtain ⟨before',left,right,after',rfl,rfl,run⟩ := exists_run Char.isLower before after
      (List.cons_ne_nil c []) (by simpa using small)
    obtain ⟨b,last,capital⟩ := title.small before' (left ++ [c] ++ right) after' (by simp) run
    rcases List.eq_nil_or_concat left with rfl | ⟨more,e,rfl⟩
    · exact ⟨b,by simpa using last,by simp [Stem.isAlpha_eq,capital]⟩
    · refine ⟨e,by simp,?_⟩
      simp [Stem.isAlpha_eq,run.inside e (by simp)]
  · rintro before c d after rfl capital capital'
    obtain ⟨before',left,right,after',rfl,rfl,run⟩ := exists_run Char.isUpper before after
      (List.cons_ne_nil c [d]) (by simp [capital,capital'])
    have length := title.capitals before' (left ++ [c,d] ++ right) after' (by simp) run
    simp only [List.length_append,List.length_cons,List.length_nil] at length
    have last : right = [] := List.eq_nil_of_length_eq_zero (by omega)
    obtain ⟨_,e,first,small⟩ := length.resolve_left (by omega)
    exact ⟨e,by simpa [last] using first,small⟩

theorem Stepwise.inTitleCase {cs : List Char} (steps : Stepwise cs) : InTitleCase cs := by
  constructor
  · rintro before run after rfl ⟨filled,inside,left,right⟩
    obtain ⟨c,cs,rfl⟩ := List.exists_cons_of_ne_nil filled
    obtain ⟨b,last,letter⟩ := steps.small before c (cs ++ after) (by simp) (inside c List.mem_cons_self)
    refine ⟨b,last,?_⟩
    simpa [Stem.isAlpha_eq,left b last] using letter
  · rintro before run after rfl ⟨filled,inside,left,right⟩
    obtain ⟨c,cs,rfl⟩ := List.exists_cons_of_ne_nil filled
    cases cs with
    | nil => exact .inl rfl
    | cons d ds =>
      obtain ⟨e,first,small⟩ := steps.capitals before c d (ds ++ after) (by simp) (inside c (by simp))
        (inside d (by simp))
      cases ds with
      | nil => exact .inr ⟨rfl,e,first,small⟩
      | cons f fs =>
        obtain rfl : f = e := by simpa using first
        simp [apart_of_isUpper (inside f (by simp))] at small

theorem inTitleCase_iff_stepwise {cs : List Char} : InTitleCase cs ↔ Stepwise cs :=
  ⟨InTitleCase.stepwise,Stepwise.inTitleCase⟩

/-- A word that capitalizing gives. -/
def IsTitle (w : List Char) : Prop := (∀ c ∈ w.head?, c.isLower = false) ∧ ∀ c ∈ w.tail, c.isUpper = false

section Step

variable {w rest : List Char}

/-- A small letter stands among letters. -/
theorem EndsAt.isAlpha_of_small (ends : EndsAt w rest) {c : Char} (member : c ∈ w) (small : c.isLower) :
    ∀ b ∈ w, b.isAlpha := by
  intro b other
  cases ends with
  | small filled inside => simp [Stem.isAlpha_eq,inside b other]
  | digits filled inside =>
    have digit := inside c member
    simp [apart_of_isLower small] at digit
  | titled capital filled inside =>
    rcases List.mem_cons.mp other with rfl | other
    · simp [Stem.isAlpha_eq,capital]
    · simp [Stem.isAlpha_eq,inside b other]
  | capitals filled inside => simp [Stem.isAlpha_eq,inside b other]
  | beforeTitle filled inside => simp [Stem.isAlpha_eq,inside b other]

/-- A capital that ends a word, with another one behind it, has a small letter behind that. -/
theorem EndsAt.small_of_capitals {before after : List Char} {c d : Char} (ends : EndsAt (before ++ [c]) (d :: after))
    (capital : c.isUpper) (capital' : d.isUpper) : ∃ e ∈ after.head?, e.isLower := by
  have last : c ∈ before ++ [c] := by simp
  generalize whole : before ++ [c] = w at ends last
  cases ends with
  | small filled inside => simpa [apart_of_isUpper capital] using inside c last
  | digits filled inside => simpa [apart_of_isUpper capital] using inside c last
  | @titled e es _ _ filled inside =>
    have own : c ∈ es := by
      have same : es.getLast? = some c := by
        rw [← List.getLast?_cons_of_ne_nil filled,← whole]
        simp
      exact List.mem_of_getLast? same
    simpa [apart_of_isUpper capital] using inside c own
  | capitals filled inside stops => simpa [capital'] using stops d rfl
  | beforeTitle filled inside _ small => exact ⟨_,rfl,small⟩

theorem Stepwise.append (ends : EndsAt w rest) (title : IsTitle w) (steps : Stepwise rest) : Stepwise (w ++ rest) where
  small := by
    intro before c after whole small
    rcases List.append_eq_append_iff.mp whole with ⟨within,rfl,cut⟩ | ⟨beyond,rfl,rfl⟩
    · cases within with
      | nil =>
        obtain ⟨b,last,-⟩ := steps.small [] c after cut small
        simp at last
      | cons d within =>
        obtain rfl := (List.cons.inj cut).1
        rcases List.eq_nil_or_concat before with rfl | ⟨more,b,rfl⟩
        · simpa [small] using title.1 c rfl
        · exact ⟨b,by simp,ends.isAlpha_of_small (c := c) (by simp) small b (by simp)⟩
    · obtain ⟨b,last,letter⟩ := steps.small beyond c after rfl small
      refine ⟨b,?_,letter⟩
      simp [List.getLast?_append,Option.mem_def.mp last]
  capitals := by
    intro before c d after whole capital capital'
    rcases List.append_eq_append_iff.mp whole with ⟨within,rfl,cut⟩ | ⟨beyond,rfl,rfl⟩
    · match within,cut with
      | [],cut => exact steps.capitals [] c d after cut capital capital'
      | [_],cut =>
        obtain ⟨rfl,rfl⟩ := List.cons.inj cut
        exact ends.small_of_capitals capital capital'
      | c' :: d' :: within,cut =>
        have second : d = d' := (List.cons.inj (List.cons.inj cut).2).1
        have inside : d ∈ (before ++ c' :: d' :: within).tail := by cases before <;> simp [second]
        simpa [capital'] using title.2 d inside
    · exact steps.capitals beyond c d after rfl capital capital'

/-- Only a run of digits ends where a small letter begins. -/
theorem EndsAt.digits_of_small (ends : EndsAt w rest) {c : Char} (next : c ∈ rest.head?) (small : c.isLower) :
    ∀ b ∈ w, b.isDigit := by
  cases ends with
  | digits filled inside => exact inside
  | small filled inside stops => simpa [small] using stops c next
  | titled capital filled inside stops => simpa [small] using stops c next
  | capitals filled inside stops => simpa [small] using stops c next
  | beforeTitle filled inside capital =>
    obtain rfl := Option.some.inj next
    simp [apart_of_isUpper capital] at small

/-- Two capitals at the end of a word have a small letter behind them, where every character allows the next. -/
theorem Stepwise.small_of_capitals {before : List Char} (steps : Stepwise (before ++ w ++ rest))
    (inside : ∀ c ∈ w, c.isUpper) (several : w.tail ≠ []) : ∃ c ∈ rest.head?, c.isLower := by
  rcases List.eq_nil_or_concat w with rfl | ⟨more,d,rfl⟩
  · exact absurd rfl several
  rcases List.eq_nil_or_concat more with rfl | ⟨more,c,rfl⟩
  · exact absurd rfl several
  exact steps.capitals (before ++ more) c d rest (by simp) (inside c (by simp)) (inside d (by simp))

theorem EndsAt.isTitle (ends : EndsAt w rest) {before : List Char}
    (apart : ∀ b ∈ before.getLast?, ∀ c ∈ w.head?, c.isLower → b.isAlpha = false)
    (steps : Stepwise (before ++ w ++ rest)) : IsTitle w := by
  constructor
  · intro c first
    obtain ⟨cs,rfl⟩ := List.head?_eq_some_iff.mp first
    by_contra small
    rw [Bool.not_eq_false] at small
    obtain ⟨b,last,letter⟩ := steps.small before c (cs ++ rest) (by simp) small
    simp [apart b last c first small] at letter
  · intro d member
    have several : w.tail ≠ [] := List.ne_nil_of_mem member
    have own := List.mem_of_mem_tail member
    cases ends with
    | small filled inside => exact (apart_of_isLower (inside d own)).1
    | digits filled inside => exact (apart_of_isDigit (inside d own)).2
    | titled capital filled inside => exact (apart_of_isLower (inside d member)).1
    | capitals filled inside stops =>
      obtain ⟨c,next,small⟩ := steps.small_of_capitals inside several
      simp [(stops c next).2] at small
    | beforeTitle filled inside capital =>
      obtain ⟨c,next,small⟩ := steps.small_of_capitals inside several
      obtain rfl := Option.some.inj next
      simp [apart_of_isUpper capital] at small

end Step

theorem stepwise_of_titles {ws : List (List Char)} (parted : Parted ws) (titles : ∀ w ∈ ws, IsTitle w) :
    Stepwise ws.flatten := by
  induction parted with
  | nil => exact ⟨by simp,by simp⟩
  | cons ends _ ih =>
    obtain ⟨title,others⟩ := List.forall_mem_cons.mp titles
    exact (ih others).append ends title

/-- The other way about, what stands before a word goes along: no letter does before one that begins small. -/
theorem titles_of_stepwise {ws : List (List Char)} (parted : Parted ws) {before : List Char}
    (apart : ∀ b ∈ before.getLast?, ∀ c ∈ ws.flatten.head?, c.isLower → b.isAlpha = false)
    (steps : Stepwise (before ++ ws.flatten)) : ∀ w ∈ ws, IsTitle w := by
  induction parted generalizing before with
  | nil => simp
  | @cons w ws ends _ ih =>
    rw [List.flatten_cons,← List.append_assoc] at steps
    have title : IsTitle w := by
      refine ends.isTitle (fun b last c first => apart b last c ?_) steps
      simp [List.head?_append,Option.mem_def.mp first]
    refine List.forall_mem_cons.mpr ⟨title,ih (fun b last c next small => ?_) steps⟩
    have own : b ∈ w := by
      obtain ⟨more,d,rfl⟩ := (List.eq_nil_or_concat w).resolve_left ends.filled
      obtain rfl : d = b := by simpa using last
      simp
    simp [Stem.isAlpha_eq,apart_of_isDigit (ends.digits_of_small next small b own)]

theorem titled_iff {identifier : String} {ws : List (List Char)} (found : words? identifier.toList = some ws) :
    Titled identifier ↔ InTitleCase identifier.toList := by
  obtain ⟨whole,parted⟩ := words?_eq_some_iff.mp found
  have titled : Titled identifier ↔ ∀ w ∈ ws, IsTitle w := by
    simp only [Titled,found,Option.some.injEq,forall_eq']
    rfl
  have apart : ∀ b ∈ ([] : List Char).getLast?, ∀ c ∈ ws.flatten.head?, c.isLower → b.isAlpha = false := by simp
  rw [titled,inTitleCase_iff_stepwise,← whole]
  exact ⟨stepwise_of_titles parted,titles_of_stepwise parted apart⟩

theorem exists_words?_iff {cs : List Char} : (∃ ws, words? cs = some ws) ↔ ∀ c ∈ cs, c.isAlphanum := by
  constructor
  · rintro ⟨ws,found⟩ c member
    obtain ⟨rfl,words⟩ := flatten_words? found
    obtain ⟨w,inside,member⟩ := List.mem_flatten.mp member
    exact (words w inside).isAlphanum c member
  · intro letters
    fun_induction words? cs with
    | case1 => exact ⟨[],rfl⟩
    | case2 c rest fails =>
      obtain ⟨w,left,found⟩ := exists_word? (letters c List.mem_cons_self) rest
      simp [fails] at found
    | case3 c rest w left first ih =>
      have whole := (endsAt_of_word? first).1
      obtain ⟨ws,found⟩ := ih fun d member => letters d (whole ▸ List.mem_append_right w member)
      exact ⟨w :: ws,by simp [found]⟩

theorem exists_toStem?_iff {identifier : String} :
    (∃ stem, toStem? identifier = some stem) ↔ identifier ≠ "" ∧ ∀ c ∈ identifier.toList, c.isAlphanum := by
  rw [← exists_words?_iff]
  unfold toStem?
  split
  · next bare => simp [String.isEmpty_iff.mp bare]
  · next filled =>
    have some : identifier ≠ "" := fun bare => filled (by rw [bare]; rfl)
    simp [some,Option.map_eq_some_iff]

/-- What an identifier suggests is its own letters and digits in lower case, with hyphens put in; the stem is accepted,
and its identifier is the same one but for the case of letters, and wholly the same just if every run of small
letters follows a capital and every run of capitals is one, or two before a small letter. -/
theorem toStem?_faithful (identifier : String) :
    ((∃ stem, toStem? identifier = some stem) ↔ identifier ≠ "" ∧ ∀ c ∈ identifier.toList, c.isAlphanum) ∧
    ∀ stem, toStem? identifier = some stem →
      stem.toList.filter (· != '-') = identifier.toList.map Char.toLower ∧
      ∃ back, Stem.toIdentifier stem = .ok back ∧
        back.toList.map Char.toLower = identifier.toList.map Char.toLower ∧
        (back = identifier ↔ InTitleCase identifier.toList) := by
  refine ⟨exists_toStem?_iff,fun stem suggested => ?_⟩
  obtain ⟨ws,found,segments⟩ := toStem?_eq_some_iff.mp suggested
  obtain ⟨kebab,leads⟩ := toIdentifier_of_toStem? suggested
  have named := Stem.toIdentifier_of_kebab kebab
  have letters : (Stem.segments stem).flatten = identifier.toList.map Char.toLower := by
    rw [segments,← (flatten_words? found).1,List.map_flatten]
  refine ⟨(Stem.filter_toList kebab).trans letters,_,named,?_,?_⟩
  · have cased : ∀ c ∈ identifier.toList, c.isAlphanum := exists_words?_iff.mp ⟨ws,found⟩
    rw [String.toList_ofList,Stem.map_toLower_flatMap fun segment inside => (kebab segment inside).2,letters,
      List.map_map]
    exact List.map_congr_left fun c member => (Stem.toLower_cased (cased c member)).2
  · rw [← titled_iff found,← leads,named,Except.ok.injEq]

theorem toStem?_faithful_initial : toStem? "XRay2" = some "x-ray-2" ∧
    Stem.toIdentifier "x-ray-2" = .ok "XRay2" ∧ InTitleCase "XRay2".toList := by
  have suggested : toStem? "XRay2" = some "x-ray-2" := by decide +kernel
  have named : Stem.toIdentifier "x-ray-2" = .ok "XRay2" := by decide +kernel
  obtain ⟨-,back,leads,-,same⟩ := (toStem?_faithful "XRay2").2 "x-ray-2" suggested
  exact ⟨suggested,named,same.mp (Except.ok.inj (leads.symm.trans named))⟩

end InlineIcons.Identifier
