import InlineIcons.Text.Case
import InlineIcons.Text.Cluster

/-!
Snake case: a name is cut into words at separators and at changes of case or between letters and
digits, and the words are joined in lower case by `_`. Cutting works on clusters, so an accent that
is written apart stays with its letter.
-/
namespace InlineIcons.Text.SnakeCase

/-- A cluster that has case and is written in upper case. -/
def isUpper (g : List Char) : Bool := upper g != lower g && upper g == g

/-- A cluster that has case and is written in lower case. -/
def isLower (g : List Char) : Bool := upper g != lower g && lower g == g

def isDigit : List Char → Bool
  | [c] => c.isDigit
  | _ => false

def isSeparator : List Char → Bool
  | [c] => c = '_' || c = '-' || c = ' '
  | _ => false

/-- Whether a word ends between two neighbouring clusters. -/
def splitsBetween (a b : List Char) : Bool :=
  (isLower a && isUpper b) || (isLower a && isDigit b) || (isUpper a && isDigit b) ||
    (isDigit a && isLower b) || (isDigit a && isUpper b)

/-- In a run of capitals that a small letter ends, the last capital begins the next word. -/
def splitsAcronym (a b : List Char) : List (List Char) → Bool
  | c :: _ => isUpper a && isUpper b && isLower c
  | [] => false

/-- The words of a sequence of clusters, given the word being read. -/
def wordsFrom (word : List Char) : List (List Char) → List (List Char)
  | [] => [word]
  | a :: rest =>
    if isSeparator a then word :: wordsFrom [] rest
    else match rest with
      | [] => [word ++ a]
      | b :: after =>
        if splitsBetween a b || splitsAcronym a b after
        then (word ++ a) :: wordsFrom [] rest
        else wordsFrom (word ++ a) rest

def words (name : List Char) : List (List Char) := wordsFrom [] (clusters name)

end SnakeCase

def snakeCase (name : String) : String :=
  "_".intercalate ((SnakeCase.words name.toList).map fun w => String.ofList (lower w))

end InlineIcons.Text
