import InlineIcons.Text.Utf8

/-! The bytes of a text determine it and are read back as the text. Where the bytes of one text begin
those of another, the text begins the other one. -/
namespace InlineIcons.Text

theorem toByteArray_utf8 (s : String) : (utf8 s).toByteArray = s.toList.utf8Encode := rfl

theorem prefix_of_utf8 {s t : String} {rest : List UInt8} (same : utf8 s ++ rest = utf8 t) :
    s.toList <+: t.toList := by
  have bytes := congrArg List.toByteArray same
  rw [List.toByteArray_append,toByteArray_utf8,toByteArray_utf8] at bytes
  exact List.isPrefix_of_utf8Encode_append_eq_utf8Encode _ bytes

/-- Of two texts whose bytes stand at the front of one stream, one begins the other. -/
theorem prefix_or_prefix_of_utf8 {s t : String} {rest rest' : List UInt8}
    (same : utf8 s ++ rest = utf8 t ++ rest') : s.toList <+: t.toList ∨ t.toList <+: s.toList := by
  rcases List.append_eq_append_iff.mp same with ⟨middle,longer,_⟩ | ⟨middle,longer,_⟩
  · exact .inl (prefix_of_utf8 longer.symm)
  · exact .inr (prefix_of_utf8 longer.symm)

theorem utf8_injective {s t : String} (same : utf8 s = utf8 t) : s = t := by
  have forth : s.toList <+: t.toList := prefix_of_utf8 ((List.append_nil _).trans same)
  have back : t.toList <+: s.toList := prefix_of_utf8 ((List.append_nil _).trans same.symm)
  exact String.toList_inj.mp (forth.eq_of_length (Nat.le_antisymm forth.length_le back.length_le))

theorem toNat_byte {n : Nat} (small : n < 256) : (UInt8.ofNat n).toNat = n := by
  simpa using Nat.mod_eq_of_lt small

theorem isTail_byte : ∀ n < 64, isTail (.ofNat (n + 0x80)) = true := by decide

theorem payload_byte {n : Nat} (small : n < 64) : payload (.ofNat (n + 0x80)) = n := by
  rw [payload,toNat_byte (by omega)]
  omega

theorem within_byte {low high : UInt8} {n : Nat} (small : n < 64) (above : low.toNat ≤ n + 0x80)
    (below : n + 0x80 ≤ high.toNat) : (low ≤ .ofNat (n + 0x80) && .ofNat (n + 0x80) ≤ high) = true := by
  rw [Bool.and_eq_true,decide_eq_true_iff,decide_eq_true_iff,UInt8.le_iff_toNat_le,UInt8.le_iff_toNat_le,
    toNat_byte (by omega)]
  exact ⟨above,below⟩

/-- What reading asks of a first byte and the second one. -/
def Leads (b : UInt8) (size : Nat) (c : UInt8) : Prop :=
  ∃ low high, ¬b < 0x80 ∧ leadOf? b = some (size,low,high) ∧ (low ≤ c && c ≤ high) = true

theorem leads_two {x y : Nat} (small : x < 32) (large : 2 ≤ x) (second : y < 64) :
    Leads (.ofNat (x + 0xC0)) 2 (.ofNat (y + 0x80)) := by
  have lead : ∀ x < 32, 2 ≤ x → ¬UInt8.ofNat (x + 0xC0) < 0x80 ∧
      leadOf? (.ofNat (x + 0xC0)) = some (2,0x80,0xBF) := by decide
  obtain ⟨first,range⟩ := lead x small large
  exact ⟨_,_,first,range,isTail_byte y second⟩

/-- The second byte keeps out long forms of small characters, and surrogates. -/
theorem leads_three {x y : Nat} (small : x < 16) (second : y < 64) (long : 32 ≤ x * 64 + y)
    (surrogate : ¬(x = 13 ∧ 32 ≤ y)) : Leads (.ofNat (x + 0xE0)) 3 (.ofNat (y + 0x80)) := by
  have lead : ∀ x < 16, ¬UInt8.ofNat (x + 0xE0) < 0x80 ∧ leadOf? (.ofNat (x + 0xE0)) =
      some (3,if x = 0 then 0xA0 else 0x80,if x = 13 then 0x9F else 0xBF) := by decide
  obtain ⟨first,range⟩ := lead x small
  have above : (if x = 0 then 0xA0 else 0x80 : UInt8).toNat ≤ y + 0x80 := by
    by_cases least : x = 0
    · rw [if_pos least]
      show 0xA0 ≤ y + 0x80
      omega
    · rw [if_neg least]
      exact Nat.le_add_left 0x80 y
  have below : y + 0x80 ≤ (if x = 13 then 0x9F else 0xBF : UInt8).toNat := by
    by_cases halves : x = 13
    · rw [if_pos halves]
      show y + 0x80 ≤ 0x9F
      omega
    · rw [if_neg halves]
      exact Nat.add_le_add_right (Nat.le_of_lt_succ second) 0x80
  exact ⟨_,_,first,range,within_byte second above below⟩

theorem leads_four {x y : Nat} (small : x < 5) (second : y < 64) (long : 16 ≤ x * 64 + y)
    (large : x * 64 + y < 0x110) : Leads (.ofNat (x + 0xF0)) 4 (.ofNat (y + 0x80)) := by
  have lead : ∀ x < 5, ¬UInt8.ofNat (x + 0xF0) < 0x80 ∧ leadOf? (.ofNat (x + 0xF0)) =
      some (4,if x = 0 then 0x90 else 0x80,if x = 4 then 0x8F else 0xBF) := by decide
  obtain ⟨first,range⟩ := lead x small
  have above : (if x = 0 then 0x90 else 0x80 : UInt8).toNat ≤ y + 0x80 := by
    by_cases least : x = 0
    · rw [if_pos least]
      show 0x90 ≤ y + 0x80
      omega
    · rw [if_neg least]
      exact Nat.le_add_left 0x80 y
  have below : y + 0x80 ≤ (if x = 4 then 0x8F else 0xBF : UInt8).toNat := by
    by_cases most : x = 4
    · rw [if_pos most]
      show y + 0x80 ≤ 0x8F
      omega
    · rw [if_neg most]
      exact Nat.add_le_add_right (Nat.le_of_lt_succ second) 0x80
  exact ⟨_,_,first,range,within_byte second above below⟩

section ReadChar

variable {x y z w : Nat} (rest : List UInt8)

theorem readChar_one (small : x < 0x80) : readChar (.ofNat x) rest = .ok (Char.ofNat x,rest) := by
  have first : UInt8.ofNat x < 0x80 := by
    rw [UInt8.lt_iff_toNat_lt,toNat_byte (by omega)]
    exact small
  rw [readChar,if_pos first,toNat_byte (by omega)]

theorem readChar_two (small : x < 32) (large : 2 ≤ x) (second : y < 64) :
    readChar (.ofNat (x + 0xC0)) (.ofNat (y + 0x80) :: rest) = .ok (Char.ofNat (x * 64 + y),rest) := by
  obtain ⟨low,high,first,lead,within⟩ := leads_two small large second
  simp only [readChar,if_neg first,lead,within,payload_byte second,toNat_byte (show x + 0xC0 < 256 by omega)]
  simp

theorem readChar_three (small : x < 16) (second : y < 64) (third : z < 64) (long : 32 ≤ x * 64 + y)
    (surrogate : ¬(x = 13 ∧ 32 ≤ y)) :
    readChar (.ofNat (x + 0xE0)) (.ofNat (y + 0x80) :: .ofNat (z + 0x80) :: rest) =
      .ok (Char.ofNat ((x * 64 + y) * 64 + z),rest) := by
  obtain ⟨low,high,first,lead,within⟩ := leads_three small second long surrogate
  simp only [readChar,if_neg first,lead,within,payload_byte second,payload_byte third,isTail_byte z third,
    toNat_byte (show x + 0xE0 < 256 by omega)]
  simp

theorem readChar_four (small : x < 5) (second : y < 64) (third : z < 64) (fourth : w < 64)
    (long : 16 ≤ x * 64 + y) (large : x * 64 + y < 0x110) :
    readChar (.ofNat (x + 0xF0)) (.ofNat (y + 0x80) :: .ofNat (z + 0x80) :: .ofNat (w + 0x80) :: rest) =
      .ok (Char.ofNat (((x * 64 + y) * 64 + z) * 64 + w),rest) := by
  obtain ⟨low,high,first,lead,within⟩ := leads_four small second long large
  simp only [readChar,if_neg first,lead,within,payload_byte second,payload_byte third,payload_byte fourth,
    isTail_byte z third,isTail_byte w fourth,toNat_byte (show x + 0xF0 < 256 by omega)]
  simp

theorem readChar_utf8EncodeChar (c : Char) :
    ∃ b bs, String.utf8EncodeChar c ++ rest = b :: bs ∧ readChar b bs = .ok (c,rest) := by
  have bound : c.val.toNat < 0xD800 ∨ (0xDFFF < c.val.toNat ∧ c.val.toNat < 0x110000) := c.valid
  have back : Char.ofNat c.val.toNat = c := Char.ofNat_toNat c
  rw [String.utf8EncodeChar]
  generalize c.val.toNat = n at bound back
  by_cases one : n ≤ 0x7F
  · refine ⟨_,_,by rw [if_pos one,List.singleton_append],?_⟩
    rw [readChar_one rest (by omega),back]
  by_cases two : n ≤ 0x7FF
  · refine ⟨_,_,by rw [if_neg one,if_pos two,List.cons_append,List.singleton_append],?_⟩
    rw [readChar_two rest (by omega) (by omega) (by omega)]
    rw [show n / 64 % 0x20 * 64 + n % 0x40 = n by omega,back]
  by_cases three : n ≤ 0xFFFF
  · refine ⟨_,_,by rw [if_neg one,if_neg two,if_pos three,List.cons_append,List.cons_append,
      List.singleton_append],?_⟩
    rw [readChar_three rest (by omega) (by omega) (by omega) (by omega) (by omega)]
    rw [show (n / 4096 % 0x10 * 64 + n / 64 % 0x40) * 64 + n % 0x40 = n by omega,back]
  · refine ⟨_,_,by rw [if_neg one,if_neg two,if_neg three,List.cons_append,List.cons_append,
      List.cons_append,List.singleton_append],?_⟩
    rw [readChar_four rest (by omega) (by omega) (by omega) (by omega) (by omega) (by omega)]
    rw [show ((n / 262144 % 0x08 * 64 + n / 4096 % 0x40) * 64 + n / 64 % 0x40) * 64 + n % 0x40 = n by
      omega,back]

end ReadChar

theorem decode?_flatMap (cs : List Char) : decode? (cs.flatMap String.utf8EncodeChar) = some cs := by
  induction cs with
  | nil => rw [List.flatMap_nil,decode?]
  | cons c cs ih =>
    obtain ⟨b,bs,bytes,read⟩ := readChar_utf8EncodeChar (cs.flatMap String.utf8EncodeChar) c
    rw [List.flatMap_cons,bytes,decode?]
    split
    · next d rest read' =>
      rw [read] at read'
      cases read'
      rw [ih]
      rfl
    · next read' => simp [read] at read'

/-- A text is read back from its bytes. -/
@[simp] theorem ofUtf8?_utf8 (s : String) : ofUtf8? (utf8 s) = some s := by
  simp [ofUtf8?,utf8,decode?_flatMap]

end InlineIcons.Text
