import InlineIcons.Text.CaseTable

/-!
Upper and lower case of texts, by Unicode's full mappings. The one rule that looks at a character's
neighbours is kept: a capital sigma at the end of a word becomes the final form.
-/
namespace InlineIcons.Text

def inRanges (table : List (Nat × Nat)) (n : Nat) : Bool :=
  table.any fun (first, last) => first ≤ n && n ≤ last

def runImage? (table : List (Nat × Nat × Nat × Nat)) (n : Nat) : Option Nat :=
  (table.find? fun (first, last, step, _) =>
    first ≤ n && n ≤ last && (n - first) % step == 0).map fun (first, _, _, image) => image + (n - first)

def lowerOf (c : Char) : List Char :=
  if c.toNat < 0x80 then [c.toLower]
  else if c.toNat = 0x130 then ['i', '\u0307']
  else match runImage? CaseTable.lowerRuns c.toNat with
    | some n => [Char.ofNat n]
    | none => [c]

def upperOf (c : Char) : List Char :=
  if c.toNat < 0x80 then [c.toUpper]
  else match CaseTable.upperSequences.lookup c.toNat with
    | some ns => ns.map Char.ofNat
    | none => match runImage? CaseTable.upperRuns c.toNat with
      | some n => [Char.ofNat n]
      | none => [c]

def isCased (c : Char) : Bool :=
  if c.toNat < 0x80 then c.isAlpha else inRanges CaseTable.casedRanges c.toNat

/-- Characters that do not end a word for the sigma rule. -/
def isCaseIgnorable (c : Char) : Bool :=
  if c.toNat < 0x80 then c = '\'' || c = '.' || c = ':' || c = '^' || c.toNat = 0x60
  else inRanges CaseTable.ignorableRanges c.toNat

/-- Whether the next character that counts is a cased one. -/
def meetsCased (cs : List Char) : Bool :=
  match cs.dropWhile isCaseIgnorable with
  | c :: _ => isCased c
  | [] => false

/-- Lower case of a text, given what stands before it in reverse. -/
def lowerAfter (before : List Char) : List Char → List Char
  | [] => []
  | c :: cs =>
    let image :=
      if c = 'Σ' then [if meetsCased before && !meetsCased cs then 'ς' else 'σ'] else lowerOf c
    image ++ lowerAfter (c :: before) cs

def lower (cs : List Char) : List Char := lowerAfter [] cs

def upper (cs : List Char) : List Char := cs.flatMap upperOf

end InlineIcons.Text
