import InlineIcons.Proofs.Markup.Written

/-! References are resolved to what they stand for, so a text that is spelled out is read as it was; and the
canonical spelling is what escaping writes. -/
namespace InlineIcons.Markup

def isReferenceChar (c : Char) : Bool := c.isAlphanum || c = '&' || c = '#' || c = ';'

namespace Numeral

variable {base n : Nat} {cs : List Char}

theorem digit_plain {d : Nat} {c : Char} (small : d < 16) (written : c = d.digitChar ∨ c = d.digitChar.toUpper) :
    c.isAlphanum := by
  have table : ∀ d < 16, d.digitChar.isAlphanum ∧ d.digitChar.toUpper.isAlphanum := by decide
  rcases written with rfl | rfl
  · exact (table d small).1
  · exact (table d small).2

theorem plain (bound : base ≤ 16) (number : Numeral base n cs) : ∀ c ∈ cs, c.isAlphanum := by
  induction number with
  | digit small written =>
    intro c member
    rw [List.mem_singleton.mp member]
    exact digit_plain (by omega) written
  | more _ small written ih =>
    intro c member
    rcases List.mem_append.mp member with member | member
    · exact ih c member
    · rw [List.mem_singleton.mp member]
      exact digit_plain (by omega) written

theorem filled (number : Numeral base n cs) : cs ≠ [] := by cases number <;> simp

theorem digitValue?_ten {d : Nat} {c : Char} (small : d < 10) (written : c = d.digitChar ∨ c = d.digitChar.toUpper) :
    Entity.digitValue? 10 c = some d := by
  have table : ∀ d < 10, Entity.digitValue? 10 d.digitChar = some d ∧
      Entity.digitValue? 10 d.digitChar.toUpper = some d := by decide
  rcases written with rfl | rfl
  · exact (table d small).1
  · exact (table d small).2

theorem digitValue?_sixteen {d : Nat} {c : Char} (small : d < 16)
    (written : c = d.digitChar ∨ c = d.digitChar.toUpper) : Entity.digitValue? 16 c = some d := by
  have table : ∀ d < 16, Entity.digitValue? 16 d.digitChar = some d ∧
      Entity.digitValue? 16 d.digitChar.toUpper = some d := by decide
  rcases written with rfl | rfl
  · exact (table d small).1
  · exact (table d small).2

theorem readDigits_append {value : Nat} {as bs : List Char} {v : Nat}
    (first : Entity.readDigits base value as = .ok v) :
    Entity.readDigits base value (as ++ bs) = Entity.readDigits base v bs := by
  induction as generalizing value with
  | nil =>
    obtain rfl : value = v := Except.ok.inj first
    rfl
  | cons a as ih =>
    simp only [List.cons_append,Entity.readDigits] at first ⊢
    cases digit : Entity.digitValue? base a with
    | none => simp [digit] at first
    | some d =>
      simp only [digit] at first ⊢
      split at first
      · next fits => rw [if_pos fits,ih first]
      · cases first

/-- A number that fits is read as itself; so do the numbers that its digits pass through. -/
theorem readDigits_eq (values : ∀ d c, d < base → c = d.digitChar ∨ c = d.digitChar.toUpper →
    Entity.digitValue? base c = some d) (number : Numeral base n cs) (fits : n < UInt32.size) :
    Entity.readDigits base 0 cs = .ok n := by
  induction number with
  | @digit d c small written =>
    have first : base * 0 + d < UInt32.size := by omega
    simp only [Entity.readDigits,values d c small written]
    rw [if_pos first,Nat.mul_zero,Nat.zero_add]
  | @more n d cs c _ small written ih =>
    have before : n ≤ base * n := Nat.le_mul_of_pos_left n (by omega)
    rw [readDigits_append (ih (by omega))]
    simp only [Entity.readDigits,values d c small written]
    rw [if_pos fits]

theorem readNumber_eq (bound : base ≤ 16) (values : ∀ d c, d < base → c = d.digitChar ∨ c = d.digitChar.toUpper →
    Entity.digitValue? base c = some d) (number : Numeral base n cs) (fits : n < UInt32.size) :
    Entity.readNumber base cs = .ok n := by
  unfold Entity.readNumber
  split
  · exact (number.filled rfl).elim
  · exact absurd (number.plain bound '+' List.mem_cons_self) (by decide)
  · exact absurd (number.plain bound '-' List.mem_cons_self) (by decide)
  · exact number.readDigits_eq values fits

end Numeral

namespace Entity

theorem toNat_lt (c : Char) : c.toNat < UInt32.size := c.val.toNat_lt_size

theorem readCharacter_decimal {c : Char} {digits : List Char} (nonzero : c.toNat ≠ 0)
    (number : Numeral 10 c.toNat digits) : readCharacter digits = .ok c := by
  have read := number.readNumber_eq (by decide) (fun _ _ => Numeral.digitValue?_ten) (toNat_lt c)
  have valid : c.toNat.isValidChar := c.valid
  have decimal : ∀ hex, digits ≠ 'x' :: hex := by
    rintro hex rfl
    cases read
  unfold readCharacter
  split
  · next hex => exact (decimal hex rfl).elim
  · simp [read,bind,Except.bind,nonzero,valid]

theorem readCharacter_hexadecimal {c : Char} {digits : List Char} (nonzero : c.toNat ≠ 0)
    (number : Numeral 16 c.toNat digits) : readCharacter ('x' :: digits) = .ok c := by
  have read := number.readNumber_eq (by decide) (fun _ _ => Numeral.digitValue?_sixteen) (toNat_lt c)
  have valid : c.toNat.isValidChar := c.valid
  simp [readCharacter,read,bind,Except.bind,nonzero,valid]

theorem named?_of_mem {name : String} {c : Char} (member : (name,c) ∈ entities) : named? name.toList = some c := by
  simp only [entities,List.mem_cons,Prod.mk.injEq,List.not_mem_nil,or_false] at member
  rcases member with ⟨rfl,rfl⟩ | ⟨rfl,rfl⟩ | ⟨rfl,rfl⟩ | ⟨rfl,rfl⟩ | ⟨rfl,rfl⟩ <;> rfl

theorem resolve_named {name : String} {c : Char} (member : (name,c) ∈ entities) (start : Nat) :
    resolve start name.toList = .ok c := by
  have named := named?_of_mem member
  unfold resolve
  split
  · next number whole =>
    rw [whole] at named
    cases named
  · rw [named]

theorem resolve_numeric {number : List Char} {c : Char} (read : readCharacter number = .ok c) (start : Nat) :
    resolve start ('#' :: number) = .ok c := by
  simp [resolve,read]

theorem unescapeFrom_plain {c : Char} (plain : c ≠ '&') (start stop : Nat) (rest : List Char) :
    unescapeFrom start stop (c :: rest) = (unescapeFrom (start + c.utf8Size) stop rest).map (c :: ·) := by
  rw [unescapeFrom]
  · cases unescapeFrom (start + c.utf8Size) stop rest <;> rfl
  · exact plain

theorem unescapeFrom_reference {name : List Char} {c : Char} (inside : ∀ d ∈ name, inName d)
    (means : ∀ start, resolve start name = .ok c) (start stop : Nat) (rest : List Char) :
    unescapeFrom start stop (reference name ++ rest) =
      (unescapeFrom (start + Text.byteLength name + 2) stop rest).map (c :: ·) := by
  have ends : inName ';' = false := by decide
  have taken : (name ++ ';' :: rest).takeWhile inName = name := by
    simp [List.takeWhile_append_of_pos inside,ends]
  have left : (name ++ ';' :: rest).dropWhile inName = ';' :: rest := by
    simp [List.dropWhile_append_of_pos inside,ends]
  have whole : reference name ++ rest = '&' :: (name ++ ';' :: rest) := by simp [reference]
  rw [whole,unescapeFrom]
  split
  · next after split =>
    obtain rfl : rest = after := by simpa [left] using split
    simp only [taken,means]
    cases unescapeFrom (start + Text.byteLength name + 2) stop rest <;> rfl
  · next other => exact (other rest left).elim

end Entity

variable {plain : Char → Prop} {c : Char} {written : List Char}

theorem inName_of_isAlphanum {d : Char} (letter : d.isAlphanum) : Entity.inName d := by
  have ends : d ≠ ';' := by rintro rfl; cases letter
  have begins : d ≠ '&' := by rintro rfl; cases letter
  simp [Entity.inName,ends,begins]

/-- A reference is a name whose characters do not end it. -/
theorem CharForm.cases (form : CharForm plain c written) :
    (plain c ∧ written = [c]) ∨ ∃ name, written = reference name ∧
      (∀ d ∈ name, d.isAlphanum ∨ d = '#') ∧ ∀ start, Entity.resolve start name = .ok c := by
  cases form with
  | itself holds => exact .inl ⟨holds,rfl⟩
  | @named name member =>
    refine .inr ⟨name.toList,rfl,?_,Entity.resolve_named member⟩
    have table : entities.all (·.1.toList.all Char.isAlphanum) := by decide
    exact fun d inside => .inl (List.all_eq_true.mp (List.all_eq_true.mp table _ member) d inside)
  | @decimal digits nonzero number =>
    refine .inr ⟨_,rfl,?_,Entity.resolve_numeric (Entity.readCharacter_decimal nonzero number)⟩
    intro d inside
    rcases List.mem_cons.mp inside with rfl | inside
    · exact .inr rfl
    · exact .inl (number.plain (by decide) d inside)
  | @hexadecimal digits nonzero number =>
    refine .inr ⟨_,rfl,?_,Entity.resolve_numeric (Entity.readCharacter_hexadecimal nonzero number)⟩
    intro d inside
    rcases List.mem_cons.mp inside with rfl | inside
    · exact .inr rfl
    · rcases List.mem_cons.mp inside with rfl | inside
      · exact .inl rfl
      · exact .inl (number.plain (by decide) d inside)

theorem CharForm.chars (form : CharForm plain c written) : ∀ d ∈ written, plain d ∨ isReferenceChar d := by
  rcases form.cases with ⟨holds,rfl⟩ | ⟨name,rfl,inside,_⟩
  · intro d member
    exact .inl (List.mem_singleton.mp member ▸ holds)
  · intro d member
    simp only [reference,List.mem_cons,List.mem_append,List.not_mem_nil,or_false] at member
    refine .inr ?_
    rcases member with rfl | member | rfl
    · rfl
    · rcases inside d member with letter | rfl
      · simp [isReferenceChar,letter]
      · rfl
    · rfl

theorem CharForm.filled (form : CharForm plain c written) : written ≠ [] := by
  rcases form.cases with ⟨_,rfl⟩ | ⟨name,rfl,_,_⟩ <;> simp [reference]

theorem CharForm.unescapeFrom (form : CharForm plain c written) (whole : ∀ d, plain d → d ≠ '&')
    (start stop : Nat) (rest : List Char) : ∃ start', Entity.unescapeFrom start stop (written ++ rest) =
      (Entity.unescapeFrom start' stop rest).map (c :: ·) := by
  rcases form.cases with ⟨holds,rfl⟩ | ⟨name,rfl,inside,means⟩
  · exact ⟨_,Entity.unescapeFrom_plain (whole c holds) start stop rest⟩
  · refine ⟨_,Entity.unescapeFrom_reference (fun d member => ?_) means start stop rest⟩
    rcases inside d member with letter | rfl
    · exact inName_of_isAlphanum letter
    · rfl

namespace Spelled

variable {cs : List Char}

theorem chars (spelled : Spelled (CharForm plain) cs written) : ∀ d ∈ written, plain d ∨ isReferenceChar d := by
  induction spelled with
  | nil => simp
  | cons form _ ih =>
    intro d member
    rcases List.mem_append.mp member with member | member
    · exact form.chars d member
    · exact ih d member

/-- What no reference is made of stands in a spelled text only where it may stand as itself. -/
theorem not_mem (spelled : Spelled (CharForm plain) cs written) {d : Char} (other : isReferenceChar d = false)
    (excluded : ¬ plain d) : d ∉ written := by
  intro member
  rcases spelled.chars d member with holds | made
  · exact excluded holds
  · simp [other] at made

theorem filled (spelled : Spelled (CharForm plain) cs written) (some : cs ≠ []) : written ≠ [] := by
  cases spelled with
  | nil => exact (some rfl).elim
  | cons form _ => simp [form.filled]

/-- A text is read as it was before it was spelled out. -/
theorem unescape (spelled : Spelled (CharForm plain) cs written) (whole : ∀ d, plain d → d ≠ '&') :
    Entity.unescape written = .ok cs := by
  have read : ∀ start stop, Entity.unescapeFrom start stop written = .ok cs := by
    induction spelled with
    | nil =>
      intro start stop
      rw [Entity.unescapeFrom]
    | @cons c cs written rest form _ ih =>
      intro start stop
      obtain ⟨start',first⟩ := form.unescapeFrom whole start stop rest
      rw [first,ih]
      rfl
  exact read ..

end Spelled

theorem escapeChar_eq (c : Char) : Entity.escapeChar c = canonicalChar entities c := by
  unfold Entity.escapeChar
  by_cases less : c = '<'
  · subst less; rfl
  by_cases greater : c = '>'
  · subst greater; rfl
  by_cases apostrophe : c = '\''
  · subst apostrophe; rfl
  by_cases ampersand : c = '&'
  · subst ampersand; rfl
  by_cases quotation : c = '"'
  · subst quotation; rfl
  have unnamed : entities.find? (·.2 = c) = none :=
    List.find?_eq_none.mpr (by simp [entities,Ne.symm less,Ne.symm greater,Ne.symm apostrophe,
      Ne.symm ampersand,Ne.symm quotation])
  simp [canonicalChar,unnamed,less,greater,apostrophe,ampersand,quotation]

theorem escapeTextChar_eq (c : Char) : Entity.escapeTextChar c = canonicalChar (entities.take 3) c := by
  unfold Entity.escapeTextChar
  by_cases less : c = '<'
  · subst less; rfl
  by_cases greater : c = '>'
  · subst greater; rfl
  by_cases ampersand : c = '&'
  · subst ampersand; rfl
  have unnamed : (entities.take 3).find? (·.2 = c) = none :=
    List.find?_eq_none.mpr (by simp [entities,Ne.symm less,Ne.symm greater,Ne.symm ampersand])
  simp [canonicalChar,unnamed,less,greater,ampersand]

theorem spelled_flatMap {form : Char → List Char → Prop} {f : Char → List Char} (each : ∀ c, form c (f c))
    (cs : List Char) : Spelled form cs (cs.flatMap f) := by
  induction cs with
  | nil => exact .nil
  | cons c cs ih => exact .cons (each c) ih

theorem spelled_escape (q : Char) (cs : List Char) : Spelled (Style.canonical.value q) cs (Entity.escape cs) := by
  have each : ∀ c, Style.canonical.value q c (Entity.escapeChar c) := escapeChar_eq
  exact spelled_flatMap each cs

theorem spelled_escapeText (cs : List Char) : Spelled Style.canonical.text cs (Entity.escapeText cs) := by
  have each : ∀ c, Style.canonical.text c (Entity.escapeTextChar c) := escapeTextChar_eq
  exact spelled_flatMap each cs

end InlineIcons.Markup
