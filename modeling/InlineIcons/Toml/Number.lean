import InlineIcons.Text.Word

/-!
Numbers and dates in TOML. Settings hold neither, so all that counts is whether a word is one and
whether a number is in range.
-/
namespace InlineIcons.Toml

/-- Digits, in groups between single underscores. -/
def isDigits (digit : Char → Bool) (cs : List Char) : Bool :=
  (cs.splitOn '_').all fun group => !group.isEmpty && group.all digit

def isOctal (c : Char) : Bool := '0' ≤ c && c ≤ '7'

def isBinary (c : Char) : Bool := c = '0' || c = '1'

def isHex (c : Char) : Bool := (Text.hexValue? c).isSome

def digitsValue (base : Nat) (cs : List Char) : Nat :=
  (cs.filterMap Text.hexValue?).foldl (fun n d => n * base + d) 0

def splitSign : List Char → Bool × List Char
  | '-' :: cs => (true, cs)
  | '+' :: cs => (false, cs)
  | cs => (false, cs)

/-- Decimal digits without a needless zero in front. -/
def isDecimal (cs : List Char) : Bool :=
  isDigits Char.isDigit cs && (cs.length = 1 || cs.head? ≠ some '0')

/-- Integers fit into 128 bits, with a sign if they are negative. -/
def fitsInteger (negative : Bool) (n : Nat) : Bool :=
  if negative then n ≤ 1 <<< 127 else n < 1 <<< 128

def isInteger (cs : List Char) : Bool :=
  match cs with
  | '0' :: 'x' :: ds => isDigits isHex ds && fitsInteger false (digitsValue 16 ds)
  | '0' :: 'o' :: ds => isDigits isOctal ds && fitsInteger false (digitsValue 8 ds)
  | '0' :: 'b' :: ds => isDigits isBinary ds && fitsInteger false (digitsValue 2 ds)
  | cs =>
    let (negative, ds) := splitSign cs
    isDecimal ds && fitsInteger negative (digitsValue 10 ds)

/-- The least number that rounds to no double-precision number. -/
def tooLarge : Nat := (1 <<< 1024) - (1 <<< 970)

/-- Whether digits times a power of ten are in the range of double precision; far exponents are
decided without the power. -/
def fitsFloat (digits : Nat) (width : Nat) (exponent : Int) : Bool :=
  if digits = 0 || exponent + width < 0 then true
  else if exponent > 400 then false
  else if exponent < 0 then digits < tooLarge * Nat.pow 10 exponent.natAbs
  else digits * Nat.pow 10 exponent.natAbs < tooLarge

def fraction? : List Char → Option (List Char)
  | [] => some []
  | '.' :: cs => if isDigits Char.isDigit cs then some cs else none
  | _ => none

def isExponentMark (c : Char) : Bool := c = 'e' || c = 'E'

def exponent? : List Char → Option Int
  | [] => some 0
  | _ :: cs =>
    let (negative, ds) := splitSign cs
    if !isDigits Char.isDigit ds then none
    else
      let n : Int := digitsValue 10 ds
      some (if negative then -n else n)

def isFloat (cs : List Char) : Bool :=
  let body := (splitSign cs).2
  if body = "inf".toList || body = "nan".toList then true
  else
    let mantissa := body.takeWhile (!isExponentMark ·)
    let whole := mantissa.takeWhile (· != '.')
    match fraction? (mantissa.dropWhile (· != '.')),
      exponent? (body.dropWhile (!isExponentMark ·)) with
    | some fraction, some exponent =>
      let places := (fraction.filter Char.isDigit).length
      let digits := whole ++ fraction
      isDecimal whole && (whole.length < body.length) &&
        fitsFloat (digitsValue 10 digits) digits.length (exponent - places)
    | _, _ => false

def fixed? (width : Nat) (cs : List Char) : Option Nat :=
  if cs.length = width && cs.all Char.isDigit then some (digitsValue 10 cs) else none

def isLeap (year : Nat) : Bool := year % 4 = 0 && (year % 100 ≠ 0 || year % 400 = 0)

def daysIn (year month : Nat) : Nat :=
  if month = 2 then if isLeap year then 29 else 28
  else if [4, 6, 9, 11].contains month then 30 else 31

def isDate (cs : List Char) : Bool :=
  match cs.splitOn '-' with
  | [y, m, d] =>
    match fixed? 4 y, fixed? 2 m, fixed? 2 d with
    | some year, some month, some day =>
      1 ≤ month && month ≤ 12 && 1 ≤ day && day ≤ daysIn year month
    | _, _, _ => false
  | _ => false

def isUpTo (limit : Nat) (cs : List Char) : Bool :=
  match fixed? 2 cs with
  | some n => n ≤ limit
  | none => false

def isSeconds (cs : List Char) : Bool :=
  isUpTo 60 (cs.takeWhile (· != '.')) &&
    match cs.dropWhile (· != '.') with
    | [] => true
    | _ :: part => !part.isEmpty && part.all Char.isDigit

/-- A time of day; the seconds may be left out. -/
def isTime (cs : List Char) : Bool :=
  match cs.splitOn ':' with
  | [h, m] => isUpTo 23 h && isUpTo 59 m
  | [h, m, s] => isUpTo 23 h && isUpTo 59 m && isSeconds s
  | _ => false

/-- A distance from universal time of at most a day. -/
def isOffset (cs : List Char) : Bool :=
  match cs.splitOn ':' with
  | [h, m] => isUpTo 59 m && (isUpTo 23 h || (h = ['2', '4'] && m = ['0', '0']))
  | _ => false

/-- A time of day with or without its distance from universal time. -/
def isZonedTime (cs : List Char) : Bool :=
  let time := cs.takeWhile fun c => not (['Z', 'z', '+', '-'].contains c)
  isTime time &&
    match cs.drop time.length with
    | [] | ['Z'] | ['z'] => true
    | '+' :: offset | '-' :: offset => isOffset offset
    | _ => false

def isDateTime (cs : List Char) : Bool :=
  match cs.drop 10 with
  | [] => isDate cs || isTime cs
  | mark :: time =>
    if mark = 'T' || mark = 't' || mark = ' ' then isDate (cs.take 10) && isZonedTime time
    else isTime cs

/-- Whether a word is a number or a date. -/
def isPlain (cs : List Char) : Bool := isInteger cs || isFloat cs || isDateTime cs

end InlineIcons.Toml
