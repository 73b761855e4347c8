/-!
File stems and identifiers. A stem is in kebab case (`layout-list`), the identifier made from it in
Pascal case (`LayoutList`); the way back cuts an identifier into words and suggests a stem.
-/
namespace InlineIcons

inductive StemError where
  | empty
  | emptySegment (stem : String) (index : Nat)
  | invalidCharacter (stem : String) (character : Char)
  deriving DecidableEq, Repr

namespace StemError

def message : StemError → String
  | empty => "file name is empty"
  | emptySegment stem index => s!"'{stem}' has an empty segment at position {index}"
  | invalidCharacter stem c => s!"'{stem}' contains unsupported character '{c}'"

end StemError

namespace Stem

def capitalize : List Char → List Char
  | [] => []
  | c :: cs => c.toUpper :: cs.map Char.toLower

def segmentFault? (stem : String) (index : Nat) (segment : List Char) : Option StemError :=
  if segment.isEmpty then some (.emptySegment stem index)
  else (segment.find? fun c => !c.isAlphanum).map (.invalidCharacter stem)

/-- The fault of the leftmost faulty segment. -/
def fault? (stem : String) (index : Nat) : List (List Char) → Option StemError
  | [] => none
  | segment :: rest => (segmentFault? stem index segment).or (fault? stem (index + 1) rest)

def segments (stem : String) : List (List Char) := stem.toList.splitOn '-'

def toIdentifier (stem : String) : Except StemError String :=
  if stem.isEmpty then .error .empty
  else match fault? stem 0 (segments stem) with
    | some e => .error e
    | none => .ok (String.ofList ((segments stem).flatMap capitalize))

end Stem

namespace Identifier

/-- The first word of an identifier and what follows it: a run of small letters, a run of digits, a
capital with the small letters after it, or a run of capitals up to the one that begins a word. -/
def word? : List Char → Option (List Char × List Char)
  | [] => none
  | c :: cs =>
    if c.isLower then
      some (c :: cs.takeWhile Char.isLower, cs.dropWhile Char.isLower)
    else if c.isDigit then
      some (c :: cs.takeWhile Char.isDigit, cs.dropWhile Char.isDigit)
    else if c.isUpper then
      let capitals := c :: cs.takeWhile Char.isUpper
      let rest := cs.dropWhile Char.isUpper
      if rest.head?.any Char.isLower then
        if capitals.length = 1 then
          some (c :: rest.takeWhile Char.isLower, rest.dropWhile Char.isLower)
        else some (capitals.dropLast, capitals.drop (capitals.length - 1) ++ rest)
      else some (capitals, rest)
    else none

theorem length_dropWhile_le (p : α → Bool) (l : List α) : (l.dropWhile p).length ≤ l.length :=
  (List.dropWhile_sublist p).length_le

theorem word?_shortens {cs w rest : List Char} (h : word? cs = some (w, rest)) :
    rest.length < cs.length := by
  cases cs with
  | nil => simp [word?] at h
  | cons c cs =>
    have hl := length_dropWhile_le Char.isLower cs
    have hd := length_dropWhile_le Char.isDigit cs
    have hu := length_dropWhile_le Char.isUpper cs
    have hul := length_dropWhile_le Char.isLower (cs.dropWhile Char.isUpper)
    have hsplit := congrArg List.length (List.takeWhile_append_dropWhile (p := Char.isUpper) (l := cs))
    simp only [List.length_append] at hsplit
    simp only [word?] at h
    split at h
    · simp only [Option.some.injEq, Prod.mk.injEq] at h
      simp [← h.2]; omega
    split at h
    · simp only [Option.some.injEq, Prod.mk.injEq] at h
      simp [← h.2]; omega
    split at h
    · split at h
      · split at h
        · simp only [Option.some.injEq, Prod.mk.injEq] at h
          simp [← h.2]; omega
        · next h1 =>
          simp only [Option.some.injEq, Prod.mk.injEq] at h
          simp only [List.length_cons] at h1
          simp [← h.2]; omega
      · simp only [Option.some.injEq, Prod.mk.injEq] at h
        simp [← h.2]; omega
    · simp at h

/-- The words of an identifier; none if some character is no ASCII letter or digit. -/
def words? (cs : List Char) : Option (List (List Char)) :=
  match cs with
  | [] => some []
  | c :: rest =>
    match _h : word? (c :: rest) with
    | none => none
    | some (w, left) => (words? left).map (w :: ·)
termination_by cs.length
decreasing_by exact word?_shortens _h

/-- The stem that an identifier suggests: its words in lower case, joined by hyphens. -/
def toStem? (identifier : String) : Option String :=
  if identifier.isEmpty then none
  else (words? identifier.toList).map fun ws =>
    "-".intercalate (ws.map fun w => String.ofList (w.map Char.toLower))

/-- The file name to look for when an identifier has no icon. -/
def suggestedFile (identifier : String) : String :=
  match toStem? identifier with
  | some stem => stem ++ ".svg"
  | none => "<unresolved>"

end Identifier
end InlineIcons
