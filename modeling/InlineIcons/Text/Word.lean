import InlineIcons.Text.Case
import InlineIcons.Text.IdentifierTable

/-!
Words of program text: a letter or an underscore, and then letters, marks, digits and underscores.
Beyond ASCII the classes are Unicode's `XID_Start` and `XID_Continue`.
-/
namespace InlineIcons.Text

def isWordStart (c : Char) : Bool :=
  if c.toNat < 0x80 then c.isAlpha || c = '_' else inRanges IdentifierTable.startRanges c.toNat

def isWordContinue (c : Char) : Bool :=
  if c.toNat < 0x80 then c.isAlphanum || c = '_'
  else inRanges IdentifierTable.continueRanges c.toNat

/-- The number of characters of the word at the front of a text. -/
def wordLength : List Char → Nat
  | [] => 0
  | c :: cs => if isWordStart c then 1 + (cs.takeWhile isWordContinue).length else 0

theorem wordLength_le (cs : List Char) : wordLength cs ≤ cs.length := by
  cases cs with
  | nil => simp [wordLength]
  | cons c cs =>
    have := (List.takeWhile_prefix (l := cs) isWordContinue).length_le
    simp only [wordLength, List.length_cons]
    split <;> omega

def hexValue? (c : Char) : Option Nat :=
  if c.isDigit then some (c.toNat - 48)
  else if 'a' ≤ c ∧ c ≤ 'f' then some (c.toNat - 87)
  else if 'A' ≤ c ∧ c ≤ 'F' then some (c.toNat - 55)
  else none

end InlineIcons.Text
