import InlineIcons.Proofs.Markup.Kept

/-! Markup as it is cut from a content, with no regard to what is open around it, and which sequences of it are
documents: start tags and end tags in pairs of one name, around them elements without content, and outside of the
outermost elements nothing but white space and what carries nothing. -/
namespace InlineIcons.Markup

inductive Lexeme where
  | opening (text : List Char)
  | single (text : List Char)
  | closing (name : List Char)
  | text (raw : List Char)
  | cdata (data : List Char)
  /-- A comment, an instruction, a declaration or a document type. -/
  | aside
  deriving DecidableEq, Repr

/-- What an event shows of the content; the name of an end tag is not in its event. -/
def Lexeme.ofEvent? : Event → Option Lexeme
  | .startTag written => some (.opening written)
  | .emptyTag written => some (.single written)
  | .endTag => none
  | .text raw => some (.text raw)
  | .cdata data => some (.cdata data)
  | .comment _ => some .aside
  | .ignored => some .aside

/-- A content and the markup it is cut into. With no tag open, every end tag is a fault of the reader, so they have a
rule of their own. -/
inductive Splits : List Char → List Lexeme → Prop
  | nil : Splits [] []
  | text {c : Char} {cs : List Char} {ls : List Lexeme} (plain : c ≠ '<')
      (others : Splits (cs.dropWhile (· != '<')) ls) : Splits (c :: cs) (.text (c :: cs.takeWhile (· != '<')) :: ls)
  | markup {cs : List Char} {p : Piece} {l : Lexeme} {ls : List Lexeme} (piece : readPiece [] cs = .ok p)
      (shown : Lexeme.ofEvent? p.event = some l) (others : Splits p.rest ls) : Splits ('<' :: cs) (l :: ls)
  | closing {cs text rest : List Char} {ls : List Lexeme} (cut : cutTag? none cs = some (text,rest))
      (others : Splits rest ls) : Splits ('<' :: '/' :: cs) (.closing (trimEnd text) :: ls)

/-- The attributes that a part of a tag holds, as they are written. -/
inductive HasAttributes : Nat → List Char → List RawAttribute → Prop
  | nil {position : Nat} {cs : List Char} (blank : cs.dropWhile isTagBlank = []) : HasAttributes position cs []
  | cons {position : Nat} {cs rest : List Char} {first : Char} {a : RawAttribute} {as : List RawAttribute}
      (starts : cs.dropWhile isTagBlank = first :: rest)
      (one : readAttribute (endPosition position (cs.takeWhile isTagBlank)) first rest = .ok a)
      (others : HasAttributes a.position a.rest as) : HasAttributes position cs (a :: as)

/-- A text whose references all have a meaning. -/
def Resolves (raw : List Char) : Prop := ∃ content, Entity.unescape raw = .ok content

/-- The attributes of a tag can be told, and the values of those that declare no namespace resolve. -/
def TagReadable (text : List Char) : Prop :=
  ∃ as, HasAttributes (Text.byteLength (tagName text)) (text.drop (tagName text).length) as ∧
    ∀ a ∈ as, isNamespaceKey a.key = false → Resolves a.value

def Lexeme.Readable : Lexeme → Prop
  | .opening written => TagReadable written
  | .single written => TagReadable written
  | .text raw => Resolves raw
  | _ => True

/-- What an element may have around it inside another one, and is no tag of a pair. -/
def Lexeme.IsLeaf : Lexeme → Prop
  | .opening _ => False
  | .closing _ => False
  | _ => True

/-- What may stand outside of the outermost elements. -/
def Lexeme.IsOuter : Lexeme → Prop
  | .text raw => ∃ content, Entity.unescape raw = .ok content ∧ content.all Text.isBlank
  | .aside => True
  | _ => False

/-- What may stand inside an element: start and end tags are pairs with the same full name. -/
inductive Nested : List Lexeme → Prop
  | nil : Nested []
  | leaf {l : Lexeme} {ls : List Lexeme} (leaf : l.IsLeaf) (others : Nested ls) : Nested (l :: ls)
  | element {text : List Char} {inner ls : List Lexeme} (inside : Nested inner) (others : Nested ls) :
      Nested (.opening text :: (inner ++ .closing (tagName text) :: ls))

/-- A sequence with so many outermost elements. -/
inductive Rooted : Nat → List Lexeme → Prop
  | nil : Rooted 0 []
  | outer {n : Nat} {l : Lexeme} {ls : List Lexeme} (outer : l.IsOuter) (others : Rooted n ls) : Rooted n (l :: ls)
  | single {n : Nat} {text : List Char} {ls : List Lexeme} (others : Rooted n ls) : Rooted (n + 1) (.single text :: ls)
  | element {n : Nat} {text : List Char} {inner ls : List Lexeme} (inside : Nested inner) (others : Rooted n ls) :
      Rooted (n + 1) (.opening text :: (inner ++ .closing (tagName text) :: ls))

/-- The rest of a sequence with some tags open, innermost first, and so many outermost elements behind them. -/
def Closes : List (List Char) → Nat → List Lexeme → Prop
  | [],n,ls => Rooted n ls
  | name :: names,n,ls => ∃ inner rest, ls = inner ++ .closing name :: rest ∧ Nested inner ∧ Closes names n rest

section Closes

variable {name : List Char} {names : List (List Char)} {n : Nat} {l : Lexeme} {ls : List Lexeme} {text : List Char}

theorem closes_leaf (leaf : l.IsLeaf) : Closes (name :: names) n (l :: ls) ↔ Closes (name :: names) n ls := by
  constructor
  · rintro ⟨inner,rest,whole,nested,closes⟩
    cases nested with
    | nil =>
      obtain ⟨rfl,-⟩ := List.cons.inj whole
      exact leaf.elim
    | leaf _ others =>
      obtain ⟨-,rfl⟩ := List.cons.inj whole
      exact ⟨_,rest,rfl,others,closes⟩
    | element =>
      obtain ⟨rfl,-⟩ := List.cons.inj whole
      exact leaf.elim
  · rintro ⟨inner,rest,rfl,nested,closes⟩
    exact ⟨l :: inner,rest,rfl,.leaf leaf nested,closes⟩

theorem closes_opening :
    Closes (name :: names) n (.opening text :: ls) ↔ Closes (tagName text :: name :: names) n ls := by
  constructor
  · rintro ⟨inner,rest,whole,nested,closes⟩
    cases nested with
    | nil => cases (List.cons.inj whole).1
    | leaf leaf =>
      obtain ⟨rfl,-⟩ := List.cons.inj whole
      exact leaf.elim
    | @element _ inside others inner later =>
      obtain ⟨same,rfl⟩ := List.cons.inj whole
      obtain rfl := Lexeme.opening.inj same
      exact ⟨inside,others ++ .closing name :: rest,by simp,inner,others,rest,rfl,later,closes⟩
  · rintro ⟨inner,_,rfl,nested,others,rest,rfl,later,closes⟩
    exact ⟨.opening text :: (inner ++ .closing (tagName text) :: others),rest,by simp,.element nested later,closes⟩

theorem closes_closing {other : List Char} :
    Closes (name :: names) n (.closing other :: ls) ↔ other = name ∧ Closes names n ls := by
  constructor
  · rintro ⟨inner,rest,whole,nested,closes⟩
    cases nested with
    | nil =>
      obtain ⟨same,rfl⟩ := List.cons.inj whole
      exact ⟨Lexeme.closing.inj same,closes⟩
    | leaf leaf =>
      obtain ⟨rfl,-⟩ := List.cons.inj whole
      exact leaf.elim
    | element => cases (List.cons.inj whole).1
  · rintro ⟨rfl,closes⟩
    exact ⟨[],ls,rfl,.nil,closes⟩

theorem rooted_opening : Rooted n (.opening text :: ls) ↔ ∃ m, n = m + 1 ∧ Closes [tagName text] m ls := by
  constructor
  · intro rooted
    cases rooted with
    | outer outer => exact outer.elim
    | element inside others => exact ⟨_,rfl,_,_,rfl,inside,others⟩
  · rintro ⟨m,rfl,inner,rest,rfl,inside,others⟩
    exact .element inside others

theorem rooted_single : Rooted n (.single text :: ls) ↔ ∃ m, n = m + 1 ∧ Rooted m ls := by
  constructor
  · intro rooted
    cases rooted with
    | outer outer => exact outer.elim
    | single others => exact ⟨_,rfl,others⟩
  · rintro ⟨m,rfl,others⟩
    exact .single others

/-- No tag but a start tag begins an element, and what begins none has to be such as may stand outside. -/
theorem rooted_other (opening : ∀ text, l ≠ .opening text) (single : ∀ text, l ≠ .single text) :
    Rooted n (l :: ls) ↔ l.IsOuter ∧ Rooted n ls := by
  constructor
  · intro rooted
    cases rooted with
    | outer outer others => exact ⟨outer,others⟩
    | single => exact absurd rfl (single _)
    | element => exact absurd rfl (opening _)
  · rintro ⟨outer,others⟩
    exact .outer outer others

theorem rooted_outer (outer : l.IsOuter) : Rooted n (l :: ls) ↔ Rooted n ls := by
  have opening : ∀ text, l ≠ .opening text := by
    rintro text rfl
    exact outer
  have single : ∀ text, l ≠ .single text := by
    rintro text rfl
    exact outer
  exact (rooted_other opening single).trans (and_iff_right outer)

end Closes

end InlineIcons.Markup
