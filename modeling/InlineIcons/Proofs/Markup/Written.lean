import InlineIcons.Proofs.Markup.Name
import InlineIcons.Text.Blank

/-! Trees of elements and their texts. A style says what a writer may choose: quotes, blanks, how a character
stands in a value or a text, and whether an element without children gets an end tag. Free style has all the
choices that the syntax leaves; canonical style has none, so a tree has one canonical text. -/
namespace InlineIcons.Markup

inductive Tree where
  | element (name : FullName) (attributes : List (FullName × List Char)) (children : List Tree)
  | text (content : List Char)
  | cdata (data : List Char)
  | comment (content : List Char)

namespace Tree

def isElement : Tree → Bool
  | element .. => true
  | _ => false

def isText : Tree → Bool
  | text _ => true
  | _ => false

def cdataStart : List Char := ['<','!','[','C','D','A','T','A','[']

/-- The end of a CDATA section, which cannot stand inside one. -/
def cdataEnd : List Char := [']',']','>']

def commentStart : List Char := ['<','!','-','-']

def commentEnd : List Char := ['-','-','>']

mutual
/-- What can be told apart once it is written: no text is empty or beside another one, and no section or
comment holds its own end. -/
def Proper : Tree → Prop
  | element _ _ children => ProperAll children
  | text content => content ≠ []
  | cdata data => ¬ cdataEnd <:+: data
  | comment content => ¬ commentEnd <:+: content

def ProperAll : List Tree → Prop
  | [] => True
  | t :: ts => t.Proper ∧ (t.isText → ∀ next ∈ ts.head?, next.isText = false) ∧ ProperAll ts
end

mutual
/-- The tree with local names, without namespace declarations and without blank texts, at every depth. A
blank text leaves nothing. -/
def normal : Tree → List Tree
  | element name attributes children =>
    [element name.bare (attributes.filter fun a => !a.1.declares) (normalAll children)]
  | text content => if content.all Text.isBlank then [] else [text content]
  | cdata data => [cdata data]
  | comment content => [comment content]

def normalAll : List Tree → List Tree
  | [] => []
  | t :: ts => t.normal ++ normalAll ts
end

end Tree

def entities : List (String × Char) := [("lt",'<'),("gt",'>'),("amp",'&'),("apos",'\''),("quot",'"')]

def reference (name : List Char) : List Char := '&' :: (name ++ [';'])

/-- A number in a base of at most sixteen, leading zeros allowed. -/
inductive Numeral (base : Nat) : Nat → List Char → Prop
  | digit {d : Nat} {c : Char} : d < base → c = d.digitChar ∨ c = d.digitChar.toUpper → Numeral base d [c]
  | more {n d : Nat} {cs : List Char} {c : Char} : Numeral base n cs → d < base →
      c = d.digitChar ∨ c = d.digitChar.toUpper → Numeral base (base * n + d) (cs ++ [c])

/-- A character as itself, where its place allows that, or by a reference. -/
inductive CharForm (plain : Char → Prop) (c : Char) : List Char → Prop
  | itself : plain c → CharForm plain c [c]
  | named {name : String} : (name,c) ∈ entities → CharForm plain c (reference name.toList)
  | decimal {digits : List Char} : c.toNat ≠ 0 → Numeral 10 c.toNat digits →
      CharForm plain c (reference ('#' :: digits))
  | hexadecimal {digits : List Char} : c.toNat ≠ 0 → Numeral 16 c.toNat digits →
      CharForm plain c (reference ('#' :: 'x' :: digits))

def canonicalChar (names : List (String × Char)) (c : Char) : List Char :=
  match names.find? (·.2 = c) with
  | some (name,_) => reference name.toList
  | none => [c]

/-- A text character by character. -/
inductive Spelled (form : Char → List Char → Prop) : List Char → List Char → Prop
  | nil : Spelled form [] []
  | cons {c : Char} {cs written rest : List Char} : form c written → Spelled form cs rest →
      Spelled form (c :: cs) (written ++ rest)

structure Style where
  quote : Char → Prop
  /-- What may stand before an attribute. -/
  gap : List Char → Prop
  /-- What may stand around `=` and at the end of a tag. -/
  slack : List Char → Prop
  /-- A character of a value, given the quotes around it. -/
  value : Char → Char → List Char → Prop
  text : Char → List Char → Prop
  /-- Whether an element without children may have an end tag. -/
  paired : Prop

def Blanks (cs : List Char) : Prop := ∀ c ∈ cs, isTagBlank c

instance (cs : List Char) : Decidable (Blanks cs) := decidable_of_iff _ List.all_eq_true

namespace Style

def free : Style where
  quote q := q = '"' ∨ q = '\''
  gap cs := cs ≠ [] ∧ Blanks cs
  slack := Blanks
  value q := CharForm fun c => c ≠ '<' ∧ c ≠ '&' ∧ c ≠ q
  text := CharForm fun c => c ≠ '<' ∧ c ≠ '&'
  paired := True

/-- Double quotes, one blank before an attribute, references by name and only where a character needs one:
in values for all that have names, in texts for the first three of them. -/
def canonical : Style where
  quote q := q = '"'
  gap cs := cs = [' ']
  slack cs := cs = []
  value _ c written := written = canonicalChar entities c
  text c written := written = canonicalChar (entities.take 3) c
  paired := False

/-- Every choice of one style is a choice of the other. -/
structure Within (s s' : Style) : Prop where
  quote : ∀ q, s.quote q → s'.quote q
  gap : ∀ cs, s.gap cs → s'.gap cs
  slack : ∀ cs, s.slack cs → s'.slack cs
  value : ∀ q c written, s.quote q → s.value q c written → s'.value q c written
  text : ∀ c written, s.text c written → s'.text c written
  paired : s.paired → s'.paired

end Style

inductive AttributesWritten (style : Style) : List (FullName × List Char) → List Char → Prop
  | nil : AttributesWritten style [] []
  | cons {name : FullName} {value gap before after written rest : List Char} {q : Char}
      {more : List (FullName × List Char)} :
      style.gap gap → style.slack before → style.slack after → style.quote q →
      Spelled (style.value q) value written → AttributesWritten style more rest →
      AttributesWritten style ((name,value) :: more)
        (gap ++ name.text ++ before ++ '=' :: (after ++ q :: (written ++ q :: rest)))

mutual
inductive Tree.Written (style : Style) : Tree → List Char → Prop
  | single {name : FullName} {attributes : List (FullName × List Char)} {tag slack : List Char} :
      AttributesWritten style attributes tag → style.slack slack →
      Tree.Written style (.element name attributes [])
        ('<' :: (name.text ++ tag ++ slack ++ ['/','>']))
  | paired {name : FullName} {attributes : List (FullName × List Char)} {children : List Tree}
      {tag slack inner ending : List Char} :
      (children = [] → style.paired) → AttributesWritten style attributes tag → style.slack slack →
      Tree.AllWritten style children inner → style.slack ending →
      Tree.Written style (.element name attributes children)
        ('<' :: (name.text ++ tag ++ slack ++ '>' :: (inner ++ '<' :: '/' :: (name.text ++ ending ++ ['>']))))
  | text {content written : List Char} : Spelled style.text content written →
      Tree.Written style (.text content) written
  | cdata {data : List Char} : Tree.Written style (.cdata data) (Tree.cdataStart ++ data ++ Tree.cdataEnd)
  | comment {content : List Char} :
      Tree.Written style (.comment content) (Tree.commentStart ++ content ++ Tree.commentEnd)

inductive Tree.AllWritten (style : Style) : List Tree → List Char → Prop
  | nil : Tree.AllWritten style [] []
  | cons {t : Tree} {ts : List Tree} {written rest : List Char} : Tree.Written style t written →
      Tree.AllWritten style ts rest → Tree.AllWritten style (t :: ts) (written ++ rest)
end

/-! What one style writes, a style with more choices writes too. -/

theorem Spelled.mono {form form' : Char → List Char → Prop} (more : ∀ c written, form c written → form' c written)
    {cs written : List Char} (spelled : Spelled form cs written) : Spelled form' cs written := by
  induction spelled with
  | nil => exact .nil
  | cons first _ ih => exact .cons (more _ _ first) ih

variable {style style' : Style}

theorem AttributesWritten.mono (within : style.Within style') {attributes : List (FullName × List Char)}
    {written : List Char} (tag : AttributesWritten style attributes written) :
    AttributesWritten style' attributes written := by
  induction tag with
  | nil => exact .nil
  | cons gap before after quote value _ ih =>
    exact .cons (within.gap _ gap) (within.slack _ before) (within.slack _ after) (within.quote _ quote)
      (value.mono fun c written => within.value _ c written quote) ih

mutual
theorem Tree.Written.mono (within : style.Within style') (t : Tree) {written : List Char}
    (shown : t.Written style written) : t.Written style' written := by
  cases shown with
  | single tag slack => exact .single (tag.mono within) (within.slack _ slack)
  | paired childless tag slack inner ending =>
    exact .paired (fun none => within.paired (childless none)) (tag.mono within) (within.slack _ slack)
      (Tree.AllWritten.mono within _ inner) (within.slack _ ending)
  | text spelled => exact .text (spelled.mono within.text)
  | cdata => exact .cdata
  | comment => exact .comment

theorem Tree.AllWritten.mono (within : style.Within style') (ts : List Tree) {written : List Char}
    (shown : Tree.AllWritten style ts written) : Tree.AllWritten style' ts written := by
  cases shown with
  | nil => exact .nil
  | cons first rest => exact .cons (Tree.Written.mono within _ first) (Tree.AllWritten.mono within _ rest)
end

theorem Style.canonical_within_free : canonical.Within free where
  quote q double := .inl double
  gap cs blank := by
    obtain rfl : cs = [' '] := blank
    exact ⟨by simp,by simp [Blanks,isTagBlank]⟩
  slack cs none := by
    obtain rfl : cs = [] := none
    simp [free,Blanks]
  value q c written double named := by
    obtain rfl : q = '"' := double
    obtain rfl : written = canonicalChar entities c := named
    unfold canonicalChar
    split
    · next name d found =>
      have same : d = c := by simpa using List.find?_some found
      exact .named (same ▸ List.mem_of_find?_eq_some found)
    · next found =>
      have others := List.find?_eq_none.mp found
      refine .itself ⟨?_,?_,?_⟩ <;> rintro rfl <;> simp [entities] at others
  text c written named := by
    obtain rfl : written = canonicalChar (entities.take 3) c := named
    unfold canonicalChar
    split
    · next name d found =>
      have same : d = c := by simpa using List.find?_some found
      exact .named (same ▸ List.mem_of_mem_take (List.mem_of_find?_eq_some found))
    · next found =>
      have others := List.find?_eq_none.mp found
      refine .itself ⟨?_,?_⟩ <;> rintro rfl <;> simp [entities] at others
  paired none := none.elim

theorem Spelled.unique {form : Char → List Char → Prop} (one : ∀ c a b, form c a → form c b → a = b)
    {cs a b : List Char} (first : Spelled form cs a) (second : Spelled form cs b) : a = b := by
  induction first generalizing b with
  | nil => cases second; rfl
  | cons form _ ih =>
    cases second with
    | cons form' rest => rw [one _ _ _ form form',ih rest]

theorem AttributesWritten.unique {attributes : List (FullName × List Char)} {a b : List Char}
    (first : AttributesWritten .canonical attributes a) (second : AttributesWritten .canonical attributes b) :
    a = b := by
  induction first generalizing b with
  | nil => cases second; rfl
  | cons gap before after quote value _ ih =>
    cases second with
    | cons gap' before' after' quote' value' rest =>
      obtain rfl := gap.trans gap'.symm
      obtain rfl := before.trans before'.symm
      obtain rfl := after.trans after'.symm
      obtain rfl := quote.trans quote'.symm
      rw [value.unique (fun _ _ _ same same' => same.trans same'.symm) value',ih rest]

mutual
theorem Tree.Written.unique (t : Tree) {a b : List Char} (first : t.Written .canonical a)
    (second : t.Written .canonical b) : a = b := by
  cases first with
  | single tag slack =>
    cases second with
    | single tag' slack' => rw [tag.unique tag',slack.trans slack'.symm]
    | paired childless => exact (childless rfl).elim
  | paired childless tag slack inner ending =>
    cases second with
    | single => exact (childless rfl).elim
    | paired _ tag' slack' inner' ending' =>
      rw [tag.unique tag',slack.trans slack'.symm,Tree.AllWritten.unique _ inner inner',
        ending.trans ending'.symm]
  | text spelled =>
    cases second with
    | text spelled' => exact spelled.unique (fun _ _ _ same same' => same.trans same'.symm) spelled'
  | cdata => cases second; rfl
  | comment => cases second; rfl

theorem Tree.AllWritten.unique (ts : List Tree) {a b : List Char} (first : Tree.AllWritten .canonical ts a)
    (second : Tree.AllWritten .canonical ts b) : a = b := by
  cases first with
  | nil => cases second; rfl
  | cons head tail =>
    cases second with
    | cons head' tail' => rw [Tree.Written.unique _ head head',Tree.AllWritten.unique _ tail tail']
end

end InlineIcons.Markup
