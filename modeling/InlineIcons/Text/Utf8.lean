/-!
Texts as bytes. Reading bytes that are no text either fails or puts a replacement character in the
place of each part that is broken.
-/
namespace InlineIcons.Text

def utf8 (s : String) : List UInt8 := s.toList.flatMap String.utf8EncodeChar

def isTail (b : UInt8) : Bool := 0x80 ≤ b && b ≤ 0xBF

/-- The second byte after a first one: how many bytes the character has, and the range in which the
second one lies. -/
def leadOf? (b : UInt8) : Option (Nat × UInt8 × UInt8) :=
  if 0xC2 ≤ b && b ≤ 0xDF then some (2, 0x80, 0xBF)
  else if b = 0xE0 then some (3, 0xA0, 0xBF)
  else if b = 0xED then some (3, 0x80, 0x9F)
  else if 0xE1 ≤ b && b ≤ 0xEF then some (3, 0x80, 0xBF)
  else if b = 0xF0 then some (4, 0x90, 0xBF)
  else if b = 0xF4 then some (4, 0x80, 0x8F)
  else if 0xF1 ≤ b && b ≤ 0xF3 then some (4, 0x80, 0xBF)
  else none

/-- The bits that a byte adds to a character. -/
def payload (b : UInt8) : Nat := b.toNat % 64

/-- One character at the front of some bytes: the character, or the number of bytes of the longest
beginning of a character. -/
def readChar (b : UInt8) (bs : List UInt8) : Except Nat (Char × List UInt8) :=
  if b < 0x80 then .ok (Char.ofNat b.toNat, bs)
  else match leadOf? b with
    | none => .error 1
    | some (size, low, high) =>
      match bs with
      | [] => .error 1
      | c :: cs =>
        if !(low ≤ c && c ≤ high) then .error 1
        else if size = 2 then .ok (Char.ofNat ((b.toNat - 0xC0) * 64 + payload c), cs)
        else match cs with
          | [] => .error 2
          | d :: ds =>
            if !isTail d then .error 2
            else if size = 3 then
              .ok (Char.ofNat (((b.toNat - 0xE0) * 64 + payload c) * 64 + payload d), ds)
            else match ds with
              | [] => .error 3
              | e :: es =>
                if !isTail e then .error 3
                else .ok (Char.ofNat
                  ((((b.toNat - 0xF0) * 64 + payload c) * 64 + payload d) * 64 + payload e), es)

theorem readChar_length {b : UInt8} {bs rest : List UInt8} {c : Char}
    (h : readChar b bs = .ok (c, rest)) : rest.length ≤ bs.length := by
  simp only [readChar] at h
  split at h
  · simp only [Except.ok.injEq, Prod.mk.injEq] at h
    simp [← h.2]
  · split at h
    · simp at h
    · split at h
      · simp at h
      · split at h
        · simp at h
        · split at h
          · simp only [Except.ok.injEq, Prod.mk.injEq] at h
            simp [← h.2]
          · split at h
            · simp at h
            · split at h
              · simp at h
              · split at h
                · simp only [Except.ok.injEq, Prod.mk.injEq] at h
                  simp [← h.2]; omega
                · split at h
                  · simp at h
                  · split at h
                    · simp at h
                    · simp only [Except.ok.injEq, Prod.mk.injEq] at h
                      simp [← h.2]; omega

/-- The characters of some bytes, with one replacement character for each broken part. -/
def decodeLossy (bytes : List UInt8) : List Char :=
  match bytes with
  | [] => []
  | b :: bs =>
    match _h : readChar b bs with
    | .ok (c, rest) => c :: decodeLossy rest
    | .error n => '\uFFFD' :: decodeLossy (bs.drop (n - 1))
termination_by bytes.length
decreasing_by
  · have := readChar_length _h
    simp only [List.length_cons]; omega
  · simp only [List.length_cons, List.length_drop]; omega

/-- The characters of some bytes, if they are a text. -/
def decode? (bytes : List UInt8) : Option (List Char) :=
  match bytes with
  | [] => some []
  | b :: bs =>
    match _h : readChar b bs with
    | .ok (c, rest) => (decode? rest).map (c :: ·)
    | .error _ => none
termination_by bytes.length
decreasing_by
  have := readChar_length _h
  simp; omega

def ofUtf8? (bytes : List UInt8) : Option String := (decode? bytes).map String.ofList

def ofUtf8Lossy (bytes : List UInt8) : String := String.ofList (decodeLossy bytes)

end InlineIcons.Text
