import InlineIcons.Text.Word

/-!
Number literals of program text: integers in four bases, and decimal fractions with an exponent.
A word may follow as a suffix; other characters of a word may not.
-/
namespace InlineIcons.Source.Number

/-- The digits and underscores at the front of a text. -/
def decimalLength (cs : List Char) : Nat := (cs.takeWhile fun c => c.isDigit || c = '_').length

/-- An exponent after its letter: one sign, digits and underscores, and at least one digit. -/
def exponentLength? (signed valued : Bool) (count : Nat) : List Char → Option Nat
  | [] => if valued then some count else none
  | c :: cs =>
    if c = '+' ∨ c = '-' then
      if valued then some count
      else if signed then none
      else exponentLength? true valued (count + 1) cs
    else if c.isDigit then exponentLength? signed true (count + 1) cs
    else if c = '_' then exponentLength? signed valued (count + 1) cs
    else if valued then some count
    else none

def withExponent? (count : Nat) : List Char → Option Nat
  | c :: cs => if c = 'e' ∨ c = 'E' then exponentLength? false false (count + 1) cs else none
  | [] => none

/-- A number with a point or an exponent. A point before another point or a word is none; a letter
without an exponent after it is a suffix. -/
def fractionLength? (cs : List Char) : Option Nat :=
  if (cs.head?.map Char.isDigit).getD false then
    let whole := decimalLength cs
    match cs.drop whole with
    | '.' :: after =>
      if (after.head?.map fun c => c = '.' || Text.isWordStart c).getD false then none
      else
        let count := whole + 1 + decimalLength after
        some ((withExponent? count (cs.drop count)).getD count)
    | rest => withExponent? whole rest
  else none

def endOf? (empty : Bool) (count : Nat) : Option Nat := if empty then none else some count

/-- Digits of a base and underscores. A decimal digit beyond the base is a fault, a letter ends the
number. -/
def digitsLength? (base : Nat) (empty : Bool) (count : Nat) : List Char → Option Nat
  | [] => endOf? empty count
  | c :: cs =>
    if c = '_' then
      if empty ∧ base = 10 then none else digitsLength? base empty (count + 1) cs
    else match Text.hexValue? c with
      | none => endOf? empty count
      | some d =>
        if d < base then digitsLength? base false (count + 1) cs
        else if c.isDigit then none
        else endOf? empty count

def integerLength? : List Char → Option Nat
  | '0' :: 'x' :: cs => digitsLength? 16 true 2 cs
  | '0' :: 'o' :: cs => digitsLength? 8 true 2 cs
  | '0' :: 'b' :: cs => digitsLength? 2 true 2 cs
  | cs => digitsLength? 10 true 0 cs

/-- A number of the given length together with its suffix. -/
def withSuffix? (cs : List Char) (count : Nat) : Option Nat :=
  match cs.drop count with
  | c :: rest =>
    if Text.isWordStart c then some (count + Text.wordLength (c :: rest))
    else if Text.isWordContinue c then none
    else some count
  | [] => some count

def length? (cs : List Char) : Option Nat :=
  ((fractionLength? cs).bind (withSuffix? cs)).or ((integerLength? cs).bind (withSuffix? cs))

end InlineIcons.Source.Number
