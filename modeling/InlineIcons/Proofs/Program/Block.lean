import InlineIcons.CodeWriter
import Mathlib.Tactic.SplitIfs

/-! Program text read back as lines nested by braces. Reading goes by the braces alone: blanks in front of a
line, empty lines and comments are passed over. -/
namespace InlineIcons

/-- A line, or a header with what stands between its braces. -/
inductive Block where
  | line (text : List Char)
  | scope (header : List Char) (body : List Block)
  deriving Repr

/-- What a line does to the nesting. -/
inductive LineKind where
  | blank
  | opening (header : List Char)
  | closing
  | text (text : List Char)
  deriving DecidableEq, Repr

def LineKind.ofStripped (cs : List Char) : LineKind :=
  if cs = [] ∨ ['/','/'] <+: cs then .blank
  else if cs = ['\x7d'] then .closing
  else match cs.reverse with
    | '\x7b' :: ' ' :: header => .opening header.reverse
    | _ => .text cs

def LineKind.of (line : List Char) : LineKind := .ofStripped (line.dropWhile (· = ' '))

namespace LineKind

def begins : List Char → Bool
  | [] => false
  | c :: _ => c ≠ ' ' && c ≠ '/'

def ends (cs : List Char) : Bool := cs.getLast?.any fun d => d ≠ '\x7b' && d ≠ '\x7d'

theorem ends_append (cs : List Char) {ds : List Char} (ends : ends ds) : LineKind.ends (cs ++ ds) := by
  unfold LineKind.ends at ends ⊢
  rw [List.getLast?_append]
  cases last : ds.getLast? with
  | none => simp [last] at ends
  | some d => rwa [last] at ends

theorem of_begins {cs : List Char} (begins : begins cs) (more : List Char) :
    of (cs ++ more) = ofStripped (cs ++ more) ∧ ¬(cs ++ more = [] ∨ ['/','/'] <+: cs ++ more) := by
  cases cs with
  | nil => simp [LineKind.begins] at begins
  | cons c cs =>
    have first : c ≠ ' ' ∧ c ≠ '/' := by simpa [LineKind.begins] using begins
    exact ⟨by simp [of,first.1],by simp [first.2.symm]⟩

theorem of_text {cs : List Char} (begins : begins cs) (ends : ends cs) : of cs = .text cs := by
  obtain ⟨stripped,code⟩ := of_begins begins []
  rw [List.append_nil] at stripped code
  rw [stripped,ofStripped,if_neg code]
  rcases List.eq_nil_or_concat cs with rfl | ⟨front,d,rfl⟩
  · simp [LineKind.ends] at ends
  · have last : d ≠ '\x7b' ∧ d ≠ '\x7d' := by simpa [LineKind.ends] using ends
    have unclosed : front ++ [d] ≠ ['\x7d'] := by
      intro same
      simpa [last.2] using congrArg List.getLast? same
    simp [unclosed,last.1]

theorem of_opening {cs : List Char} (begins : begins cs) : of (cs ++ [' ','\x7b']) = .opening cs := by
  obtain ⟨stripped,code⟩ := of_begins begins [' ','\x7b']
  have longer : cs ++ [' ','\x7b'] ≠ ['\x7d'] := by
    intro same
    simpa using congrArg List.getLast? same
  rw [stripped,ofStripped,if_neg code,if_neg longer]
  simp

end LineKind

/-- The scopes that are open, innermost first, each with what stands before it, and what stands in the
innermost one so far. -/
structure Nesting where
  outer : List (List Char × List Block)
  inner : List Block

namespace Nesting

def start : Nesting := ⟨[],[]⟩

def feed (n : Nesting) (line : List Char) : Option Nesting :=
  match LineKind.of line with
  | .blank => some n
  | .opening header => some ⟨(header,n.inner) :: n.outer,[]⟩
  | .closing =>
    match n.outer with
    | [] => none
    | (header,before) :: outer => some ⟨outer,before ++ [.scope header n.inner]⟩
  | .text text => some { n with inner := n.inner ++ [.line text] }

def add (n : Nesting) (blocks : List Block) : Nesting := { n with inner := n.inner ++ blocks }

def finish (n : Nesting) : Option (List Block) := if n.outer.isEmpty then some n.inner else none

end Nesting

/-- The lines of a text, without their ends. -/
def linesFrom (line : List Char) : List Char → List (List Char)
  | [] => if line = [] then [] else [line]
  | c :: cs => if c = '\n' then line :: linesFrom [] cs else linesFrom (line ++ [c]) cs

def Block.read? (text : String) : Option (List Block) :=
  ((linesFrom [] text.toList).foldlM Nesting.feed .start).bind Nesting.finish

theorem linesFrom_append {cs : List Char} (single : '\n' ∉ cs) (line rest : List Char) :
    linesFrom line (cs ++ '\n' :: rest) = (line ++ cs) :: linesFrom [] rest := by
  induction cs generalizing line with
  | nil => simp [linesFrom]
  | cons c cs ih =>
    rw [List.mem_cons,not_or] at single
    rw [List.cons_append,linesFrom,if_neg (Ne.symm single.1),ih single.2,List.append_assoc]
    rfl

/-- Whole lines are read as they are, whatever comes behind them. -/
theorem linesFrom_flatMap_append {lines : List (List Char)} (single : ∀ l ∈ lines, '\n' ∉ l) (rest : List Char) :
    linesFrom [] (lines.flatMap (· ++ ['\n']) ++ rest) = lines ++ linesFrom [] rest := by
  induction lines with
  | nil => rfl
  | cons l lines ih =>
    have behind := ih fun k member => single k (List.mem_cons_of_mem l member)
    rw [List.flatMap_cons,List.append_assoc,List.append_assoc,List.singleton_append,
      linesFrom_append (single l List.mem_cons_self),behind,List.nil_append,List.cons_append]

/-- A text of whole lines is read as these lines. -/
theorem linesFrom_flatMap {lines : List (List Char)} (single : ∀ l ∈ lines, '\n' ∉ l) :
    linesFrom [] (lines.flatMap (· ++ ['\n'])) = lines := by
  simpa [linesFrom] using linesFrom_flatMap_append single []

namespace Nesting

variable {n : Nesting}

/-- Indentation does not matter for reading. -/
theorem feed_indented (n : Nesting) (blanks : Nat) (cs : List Char) :
    n.feed (List.replicate blanks ' ' ++ cs) = n.feed cs := by
  have kinds : LineKind.of (List.replicate blanks ' ' ++ cs) = LineKind.of cs := by
    unfold LineKind.of
    congr 1
    induction blanks with
    | zero => rfl
    | succ m ih => rw [List.replicate_succ,List.cons_append,List.dropWhile_cons_of_pos (by simp),ih]
  rw [feed,kinds,feed]

theorem feed_close (header : List Char) (before : List Block) (outer : List (List Char × List Block))
    (inner : List Block) :
    feed ⟨(header,before) :: outer,inner⟩ ['\x7d'] = some ⟨outer,before ++ [.scope header inner]⟩ := rfl

theorem feed_text {cs : List Char} (begins : LineKind.begins cs) (ends : LineKind.ends cs) :
    n.feed cs = some (n.add [.line cs]) := by
  rw [feed,LineKind.of_text begins ends]
  rfl

theorem feed_comment {cs : List Char} (comment : ['/','/'] <+: cs) : n.feed cs = some n := by
  obtain ⟨rest,rfl⟩ := comment
  have kind : LineKind.of (['/','/'] ++ rest) = .blank := by simp [LineKind.of,LineKind.ofStripped]
  rw [feed,kind]

theorem feed_opening {cs : List Char} (begins : LineKind.begins cs) :
    n.feed (cs ++ [' ','\x7b']) = some ⟨(cs,n.inner) :: n.outer,[]⟩ := by
  rw [feed,LineKind.of_opening begins]

@[simp] theorem add_nil (n : Nesting) : n.add [] = n := by simp [add]

@[simp] theorem add_add (n : Nesting) (before after : List Block) :
    (n.add before).add after = n.add (before ++ after) := by simp [add]

end Nesting

end InlineIcons
