import InlineIcons.Text.Word

/-!
Quoted literals of program text: strings, byte strings and zero-terminated strings, raw or with
escapes, and single characters. One machine reads what stands between the quotes; it gives both the
extent of a literal and its text.
-/
namespace InlineIcons.Source.Quoted

/-- What a quoted literal may hold: any text, bytes, or a text without zeros. -/
inductive Quoting where
  | text
  | bytes
  | terminated
  deriving DecidableEq, Repr

/-- What the machine is in the middle of. -/
inductive State where
  | plain
  | escaped
  | hexFirst
  | hexSecond (first : Nat)
  | scalarOpen
  | scalar (value digits : Nat)
  | gap
  | gapReturn
  | lineReturn
  deriving DecidableEq, Repr

/-- A character that stands for itself. A carriage return has to begin a line break, which counts as
one line feed. -/
def State.ofPlain (q : Quoting) (c : Char) : Option (State × List Char) :=
  if c = '\\' then some (.escaped, [])
  else if c = '\r' then some (.lineReturn, [])
  else if q = .bytes ∧ 0x80 ≤ c.toNat then none
  else if q = .terminated ∧ c = '\x00' then none
  else some (.plain, [c])

/-- What follows a backslash. A line break there is left out, with the blanks after it. -/
def State.ofEscape (q : Quoting) (c : Char) : Option (State × List Char) :=
  match c with
  | 'n' => some (.plain, ['\n'])
  | 'r' => some (.plain, ['\r'])
  | 't' => some (.plain, ['\t'])
  | '\\' => some (.plain, ['\\'])
  | '\'' => some (.plain, ['\''])
  | '"' => some (.plain, ['"'])
  | '0' => if q = .terminated then none else some (.plain, ['\x00'])
  | 'x' => some (.hexFirst, [])
  | 'u' => if q = .bytes then none else some (.scalarOpen, [])
  | '\n' => some (.gap, [])
  | '\r' => some (.gapReturn, [])
  | _ => none

/-- One more character of the code of a character, up to six digits and underscores after the
first. -/
def State.ofScalar (q : Quoting) (value digits : Nat) (c : Char) : Option (State × List Char) :=
  if c = '_' then if digits = 0 then none else some (.scalar value digits, [])
  else if c = '\x7d' then
    if digits = 0 ∨ ¬ value.isValidChar ∨ (q = .terminated ∧ value = 0) then none
    else some (.plain, [Char.ofNat value])
  else match Text.hexValue? c with
    | some d => if digits = 6 then none else some (.scalar (16 * value + d) (digits + 1), [])
    | none => none

/-- The next state and the characters that the text gains. -/
def State.step (q : Quoting) : State → Char → Option (State × List Char)
  | plain, c => ofPlain q c
  | escaped, c => ofEscape q c
  | hexFirst, c => do
    let d ← Text.hexValue? c
    if q = .text ∧ 8 ≤ d then none else some (hexSecond d, [])
  | hexSecond first, c => do
    let d ← Text.hexValue? c
    let value := 16 * first + d
    if q = .terminated ∧ value = 0 then none else some (plain, [Char.ofNat value])
  | scalarOpen, c => if c = '\x7b' then some (scalar 0 0, []) else none
  | scalar value digits, c => ofScalar q value digits c
  | gap, c =>
    if c = ' ' ∨ c = '\t' ∨ c = '\n' then some (gap, [])
    else if c = '\r' then some (gapReturn, [])
    else ofPlain q c
  | gapReturn, c => if c = '\n' then some (gap, []) else none
  | lineReturn, c => if c = '\n' then some (plain, ['\n']) else none

/-- A quote ends the literal where it stands for itself. -/
def State.closes (state : State) : Bool := state = .plain || state = .gap

/-- Reads up to the closing quote: the number of characters with it, and the text. -/
def readFrom (q : Quoting) (state : State) (count : Nat) (out : List Char) :
    List Char → Option (Nat × List Char)
  | [] => none
  | c :: cs =>
    if c = '"' ∧ state.closes then some (count + 1, out.reverse)
    else match state.step q c with
      | some (next, gained) => readFrom q next (count + 1) (gained.reverse ++ out) cs
      | none => none

/-- What follows the opening quote of a literal with escapes. -/
def read? (q : Quoting) (cs : List Char) : Option (Nat × List Char) := readFrom q .plain 0 [] cs

/-- What follows the opening quote of a raw literal, up to a quote with as many hashes. -/
def rawLength? (q : Quoting) (hashes count : Nat) : List Char → Option Nat
  | [] => none
  | c :: cs =>
    if c = '"' ∧ (cs.take hashes).length = hashes ∧ (cs.take hashes).all (· = '#') then
      some (count + 1 + hashes)
    else if c = '\r' ∧ cs.head? ≠ some '\n' then none
    else if q = .bytes ∧ 0x80 ≤ c.toNat then none
    else if q = .terminated ∧ c = '\x00' then none
    else rawLength? q hashes (count + 1) cs

/-- A raw literal after its letters: at most 255 hashes, a quote, and the text. -/
def rawLiteralLength? (q : Quoting) (cs : List Char) : Option Nat :=
  let hashes := (cs.takeWhile (· = '#')).length
  match cs.drop hashes with
  | '"' :: rest => if hashes ≤ 255 then rawLength? q hashes (hashes + 1) rest else none
  | _ => none

def escapeLength? (q : Quoting) (state : State) (count : Nat) : List Char → Option Nat
  | [] => none
  | c :: cs =>
    match state.step q c with
    | some (.plain, _) => some (count + 1)
    | some (.gap, _) | some (.gapReturn, _) | none => none
    | some (next, _) => escapeLength? q next (count + 1) cs

/-- A single character after its opening quote, up to the closing one. -/
def characterLength? (q : Quoting) (cs : List Char) : Option Nat := do
  let content ← match cs with
    | '\\' :: rest => (escapeLength? q .escaped 0 rest).map (· + 1)
    | c :: _ => if q = .bytes ∧ 0x80 ≤ c.toNat then none else some 1
    | [] => none
  if (cs.drop content).head? = some '\'' then some (content + 1) else none

/-- A literal of the given number of characters together with the word that may follow it. -/
def withSuffix (cs : List Char) (count : Nat) : Nat := count + Text.wordLength (cs.drop count)

def length? (cs : List Char) : Option Nat :=
  let body? : Option Nat := match cs with
    | '"' :: rest => (read? .text rest).map fun (n, _) => n + 1
    | '\'' :: rest => (characterLength? .text rest).map (· + 1)
    | 'r' :: rest => (rawLiteralLength? .text rest).map (· + 1)
    | 'b' :: '"' :: rest => (read? .bytes rest).map fun (n, _) => n + 2
    | 'b' :: '\'' :: rest => (characterLength? .bytes rest).map (· + 2)
    | 'b' :: 'r' :: rest => (rawLiteralLength? .bytes rest).map (· + 2)
    | 'c' :: '"' :: rest => (read? .terminated rest).map fun (n, _) => n + 2
    | 'c' :: 'r' :: rest => (rawLiteralLength? .terminated rest).map (· + 2)
    | _ => none
  body?.map (withSuffix cs)

/-- The text of a string literal, raw or with escapes; other literals have none. -/
def text? (literal : String) : Option String :=
  match literal.toList with
  | '"' :: rest => (read? .text rest).map fun (_, t) => String.ofList t
  | 'r' :: rest =>
    let inner := (rest.dropWhile (· = '#')).drop 1
    some (String.ofList ((inner.reverse.dropWhile (· ≠ '"')).drop 1).reverse)
  | _ => none

end InlineIcons.Source.Quoted
