import InlineIcons.Text.Case
import InlineIcons.Text.ClusterTable

/-!
Text cut into clusters: what a reader sees as one character (extended grapheme clusters). Cutting
loses nothing: joined again the clusters are the text.
-/
namespace InlineIcons.Text

inductive ClusterClass where
  | cr | lf | control | extend | joiner | indicator | lead | spacing | vowel | trail | leadVowel
  | leadVowelTrail | pictograph | before | other
  deriving DecidableEq, Repr

/-- Syllable blocks take every 28th place for a syllable without a final consonant. -/
def ClusterClass.ofChar (c : Char) : ClusterClass :=
  let n := c.toNat
  if n = 13 then .cr
  else if n = 10 then .lf
  else if n < 0x20 || n = 0x7F then .control
  else if n < 0x80 then .other
  else if n = 0x200D then .joiner
  else if inRanges ClusterTable.extendRanges n then .extend
  else if inRanges ClusterTable.spacingRanges n then .spacing
  else if inRanges ClusterTable.prependRanges n then .before
  else if inRanges ClusterTable.controlRanges n then .control
  else if 0x1F1E6 ≤ n && n ≤ 0x1F1FF then .indicator
  else if (0x1100 ≤ n && n ≤ 0x115F) || (0xA960 ≤ n && n ≤ 0xA97C) then .lead
  else if (0x1160 ≤ n && n ≤ 0x11A7) || (0xD7B0 ≤ n && n ≤ 0xD7C6) then .vowel
  else if (0x11A8 ≤ n && n ≤ 0x11FF) || (0xD7CB ≤ n && n ≤ 0xD7FB) then .trail
  else if 0xAC00 ≤ n && n ≤ 0xD7A3 then
    if (n - 0xAC00) % 28 = 0 then .leadVowel else .leadVowelTrail
  else if inRanges ClusterTable.pictographRanges n then .pictograph
  else .other

/-- What the cluster read so far has to say about the next character. -/
structure ClusterTail where
  last : ClusterClass
  /-- An odd number of indicators ends the cluster, so one more makes a pair. -/
  openPair : Bool
  /-- A pictograph and marks precede the end, so a joiner links the next pictograph. -/
  afterPictograph : Bool

def ClusterTail.ofClass (k : ClusterClass) : ClusterTail :=
  ⟨k, k == .indicator, k == .pictograph⟩

/-- Whether a character of class `k` goes on the cluster. -/
def ClusterTail.joins (t : ClusterTail) (k : ClusterClass) : Bool :=
  match t.last, k with
  | .cr, .lf => true
  | .cr, _ | .lf, _ | .control, _ => false
  | _, .cr | _, .lf | _, .control => false
  | .lead, .lead | .lead, .vowel | .lead, .leadVowel | .lead, .leadVowelTrail => true
  | .leadVowel, .vowel | .leadVowel, .trail | .vowel, .vowel | .vowel, .trail => true
  | .leadVowelTrail, .trail | .trail, .trail => true
  | _, .extend | _, .joiner | _, .spacing => true
  | .before, _ => true
  | .joiner, .pictograph => t.afterPictograph
  | .indicator, .indicator => t.openPair
  | _, _ => false

def ClusterTail.push (t : ClusterTail) (k : ClusterClass) : ClusterTail :=
  { last := k
    openPair := k == .indicator && !(t.last == .indicator && t.openPair)
    afterPictograph := k == .pictograph || (t.afterPictograph && (k == .extend || k == .joiner)) }

def clustersFrom (current : List Char) (t : ClusterTail) : List Char → List (List Char)
  | [] => [current]
  | c :: cs =>
    let k := ClusterClass.ofChar c
    if t.joins k then clustersFrom (current ++ [c]) (t.push k) cs
    else current :: clustersFrom [c] (.ofClass k) cs

def clusters : List Char → List (List Char)
  | [] => []
  | c :: cs => clustersFrom [c] (.ofClass (.ofChar c)) cs

theorem flatten_clustersFrom (current : List Char) (t : ClusterTail) (cs : List Char) :
    (clustersFrom current t cs).flatten = current ++ cs := by
  induction cs generalizing current t with
  | nil => simp [clustersFrom]
  | cons c cs ih =>
    simp only [clustersFrom]
    split <;> simp [ih]

@[simp] theorem flatten_clusters (cs : List Char) : (clusters cs).flatten = cs := by
  cases cs with
  | nil => rfl
  | cons c cs => simp [clusters, flatten_clustersFrom]

end InlineIcons.Text
