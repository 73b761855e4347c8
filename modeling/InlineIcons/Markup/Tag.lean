import InlineIcons.Markup.Entity

/-!
What stands between `<` and `>` of a tag: a name, then attributes. Attributes are read in order and
the first fault stops; namespace declarations are dropped unread.
-/
namespace InlineIcons.Markup

def isTagBlank (c : Char) : Bool := c = ' ' || c = '\t' || c = '\r' || c = '\n'

/-- Positions count bytes from the start of the tag's text. -/
inductive AttributeFault where
  | keyAlone (position : Nat)
  | noValue (position : Nat)
  | unquoted (position : Nat)
  | quoteNotClosed (position : Nat) (quote : Char)
  deriving DecidableEq, Repr

def AttributeFault.message : AttributeFault → String
  | keyAlone n => s!"position {n}: attribute key must be directly followed by `=` or space"
  | noValue n => s!"position {n}: `=` must be followed by an attribute value"
  | unquoted n => s!"position {n}: attribute value must be enclosed in `\"` or `'`"
  | quoteNotClosed n quote => s!"position {n}: missing closing quote `{quote}` in attribute value"

inductive TagFault where
  | badAttribute (fault : AttributeFault)
  | badEntity (fault : Entity.Fault)
  deriving DecidableEq, Repr

def TagFault.message : TagFault → String
  | badAttribute fault => fault.message
  | badEntity fault => fault.message

/-- A start tag after reading: the local name and the attributes that are kept. -/
structure Tag where
  name : String
  attributes : List (String × String)
  deriving DecidableEq, Repr, Inhabited

/-- The full name of a tag's text: everything up to the first blank. -/
def tagName (text : List Char) : List Char := text.takeWhile fun c => !isTagBlank c

def localName (name : List Char) : List Char :=
  match name.dropWhile (· != ':') with
  | _ :: rest => rest
  | [] => name

def isNamespaceKey (key : List Char) : Bool :=
  key = ['x', 'm', 'l', 'n', 's'] || ['x', 'm', 'l', 'n', 's', ':'].isPrefixOf key

/-- One attribute as it is written: the key, the value between its quotes, and the text that is
left with its position. -/
structure RawAttribute where
  key : List Char
  value : List Char
  position : Nat
  rest : List Char

def endPosition (position : Nat) (cs : List Char) : Nat := position + Text.byteLength cs

/-- The value of an attribute, at what follows its `=`. -/
def readValue (key : List Char) (position : Nat) (cs : List Char) :
    Except AttributeFault RawAttribute :=
  let blanks := cs.takeWhile isTagBlank
  let start := endPosition position blanks
  match cs.dropWhile isTagBlank with
  | [] => .error (.noValue start)
  | q :: rest =>
    if q = '"' || q = '\'' then
      match Text.cutAt? [q] rest with
      | some (value, after) => .ok ⟨key, value, start + Text.byteLength value + 2, after⟩
      | none => .error (.quoteNotClosed (endPosition (start + 1) rest) q)
    else .error (.unquoted start)

/-- A key goes on to the next blank or `=`; its first character may be either. -/
def inKey (c : Char) : Bool := !isTagBlank c && c != '='

def readAttribute (position : Nat) (first : Char) (cs : List Char) :
    Except AttributeFault RawAttribute :=
  let key := first :: cs.takeWhile inKey
  let afterKey := cs.dropWhile inKey
  let blanks := afterKey.takeWhile isTagBlank
  let start := endPosition position (key ++ blanks)
  match afterKey.dropWhile isTagBlank with
  | '=' :: rest => readValue key (start + 1) rest
  | _ => .error (.keyAlone start)

theorem readValue_shortens {key cs : List Char} {position : Nat} {a : RawAttribute}
    (h : readValue key position cs = .ok a) : a.rest.length < cs.length := by
  have hd := (List.dropWhile_sublist (l := cs) isTagBlank).length_le
  simp only [readValue] at h
  split at h
  · simp at h
  · next q rest hq =>
    rw [hq] at hd
    split at h
    · split at h
      · next value after hc =>
        have := Text.cutAt?_length_le hc
        simp only [Except.ok.injEq] at h
        simp [← h] at hd ⊢; omega
      · simp at h
    · simp at h

theorem readAttribute_shortens {first : Char} {cs : List Char} {position : Nat} {a : RawAttribute}
    (h : readAttribute position first cs = .ok a) : a.rest.length < cs.length := by
  have hk := (List.dropWhile_sublist (l := cs) inKey).length_le
  have hb := (List.dropWhile_sublist (l := cs.dropWhile inKey) isTagBlank).length_le
  simp only [readAttribute] at h
  split at h
  · next rest hq =>
    have := readValue_shortens h
    rw [hq] at hb
    simp at hb; omega
  · simp at h

/-- The attributes that are kept, with their values resolved. -/
def readAttributes (position : Nat) (cs : List Char) : Except TagFault (List (String × String)) :=
  match _h : cs.dropWhile isTagBlank with
  | [] => .ok []
  | first :: rest =>
    let start := endPosition position (cs.takeWhile isTagBlank)
    match _ha : readAttribute start first rest with
    | .error e => .error (.badAttribute e)
    | .ok a =>
      if isNamespaceKey a.key then readAttributes a.position a.rest
      else match Entity.unescape a.value with
        | .error e => .error (.badEntity e)
        | .ok value =>
          match readAttributes a.position a.rest with
          | .error e => .error e
          | .ok more => .ok ((String.ofList a.key, String.ofList value) :: more)
termination_by cs.length
decreasing_by
  all_goals
    have := readAttribute_shortens _ha
    have hd := (List.dropWhile_sublist (l := cs) isTagBlank).length_le
    rw [_h] at hd
    simp at hd; omega

def Tag.read (text : List Char) : Except TagFault Tag :=
  let name := tagName text
  match readAttributes (Text.byteLength name) (text.drop name.length) with
  | .error e => .error e
  | .ok attributes => .ok ⟨String.ofList (localName name), attributes⟩

end InlineIcons.Markup
