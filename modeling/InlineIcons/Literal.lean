/-!
Quoting a text as a string literal of program text.
-/
namespace InlineIcons.Literal

def hexDigits (n : Nat) : List Char := Nat.toDigits 16 n

/-- A character between the quotes. Controls never stand there as they are. -/
def escapeChar (c : Char) : List Char :=
  if c = '\\' then ['\\', '\\']
  else if c = '"' then ['\\', '"']
  else if c = '\n' then ['\\', 'n']
  else if c = '\r' then ['\\', 'r']
  else if c = '\t' then ['\\', 't']
  else if c = '\x00' then ['\\', '0']
  else if c.toNat < 0x20 || (0x7F ≤ c.toNat && c.toNat < 0xA0) then
    ['\\', 'u', '\x7b'] ++ hexDigits c.toNat ++ ['\x7d']
  else [c]

def quoteChars (cs : List Char) : List Char := '"' :: cs.flatMap escapeChar ++ ['"']

def quote (text : String) : String := String.ofList (quoteChars text.toList)

end InlineIcons.Literal
