import InlineIcons.Fingerprint
import InlineIcons.Proofs.Json.Text
import Mathlib.Algebra.Group.Nat.Defs

/-! Framing keeps the parts of a fingerprint apart. A part that says itself where it ends, such as the
text of an object, is kept apart whatever its length; any other one as long as its length fits into
eight bytes. -/
namespace InlineIcons

theorem Digest.length_blake3 (bytes : List UInt8) : (blake3 bytes).length = 32 := by
  have word (w : UInt32) : (bytesOfWord w).length = 4 := rfl
  simp [blake3,word,Chaining.words]

namespace Fingerprint

@[simp] theorem length_lengthBytes (n : Nat) : (lengthBytes n).length = 8 := by simp [lengthBytes]

/-- The low bytes of a number make up its remainder. -/
theorem mod_eq_of_bytes {n m k : Nat} (byte : ∀ i < k, n / 256^i % 256 = m / 256^i % 256) :
    n % 256^k = m % 256^k := by
  induction k with
  | zero => simp [Nat.mod_one]
  | succ k ih =>
    have low := ih fun i inside => byte i (Nat.lt_succ_of_lt inside)
    rw [Nat.mod_pow_succ,Nat.mod_pow_succ,low,byte k (Nat.lt_succ_self k)]

theorem lengthBytes_inj {n m : Nat} (fits : n < 2^64) (fits' : m < 2^64)
    (same : lengthBytes n = lengthBytes m) : n = m := by
  have byte (i : Nat) (inside : i < 8) : n / 256^i % 256 = m / 256^i % 256 := by
    have at_i := congrArg (·[i]?) same
    simp only [lengthBytes,List.getElem?_map,List.getElem?_range inside,Option.map_some,
      Option.some.injEq] at at_i
    simpa [Nat.shiftRight_eq_div_pow,Nat.pow_mul] using congrArg UInt8.toNat at_i
  have low : n % 2^64 = m % 2^64 := mod_eq_of_bytes (k := 8) byte
  rwa [Nat.mod_eq_of_lt fits,Nat.mod_eq_of_lt fits'] at low

theorem frame_append {a b r s : List UInt8} (same : frame a ++ r = frame b ++ s) :
    lengthBytes a.length = lengthBytes b.length ∧ a ++ r = b ++ s := by
  simp only [frame,List.append_assoc] at same
  exact List.append_inj same (by simp)

theorem frame_append_inj {a b r s : List UInt8} (fits : a.length < 2^64) (fits' : b.length < 2^64)
    (same : frame a ++ r = frame b ++ s) : a = b ∧ r = s := by
  obtain ⟨lengths,contents⟩ := frame_append same
  exact List.append_inj contents (lengthBytes_inj fits fits' lengths)

theorem frame_injective {a b : List UInt8} (same : frame a = frame b) : a = b := by
  have := (frame_append (r := []) (s := []) (by simpa using same)).2
  simpa using this

theorem stream_cons (p : Part) (ps : List Part) : stream (p :: ps) = frame p.content ++ stream ps := by
  simp [stream]

theorem Part.content_value (j : Json) : (Part.value j).content = j.render.flatMap String.utf8EncodeChar := by
  rw [content,Text.utf8,Json.compact,String.toList_ofList]

/-- The length of a part is a number of 64 bits. -/
def Part.Fits (p : Part) : Prop := p.content.length < 2^64

/-- Frames can be read back, whatever is in them. -/
theorem stream_eq_iff {ps qs : List Part} (fits : ∀ p ∈ ps, p.Fits) (fits' : ∀ q ∈ qs, q.Fits) :
    stream ps = stream qs ↔ ps.map Part.content = qs.map Part.content := by
  induction ps generalizing qs with
  | nil =>
    cases qs with
    | nil => simp
    | cons q qs => simp [stream,frame,lengthBytes]
  | cons p ps ih =>
    cases qs with
    | nil => simp [stream,frame,lengthBytes]
    | cons q qs =>
      have rest := ih (fun p member => fits p (List.mem_cons_of_mem _ member))
        (fun q member => fits' q (List.mem_cons_of_mem _ member))
      rw [stream_cons,stream_cons,List.map_cons,List.map_cons,List.cons_eq_cons,← rest]
      constructor
      · exact frame_append_inj (fits p List.mem_cons_self) (fits' q List.mem_cons_self)
      · rintro ⟨here,there⟩
        rw [here,there]

theorem frame_object_append_inj {fs gs : List (String × Json)} {r s : List UInt8}
    (same : frame (Part.content (.value (.obj fs))) ++ r =
      frame (Part.content (.value (.obj gs))) ++ s) : fs = gs ∧ r = s :=
  Json.compact_append_inj (frame_append same).2

theorem length_ofParts (ps : List Part) : (ofParts ps).bytes.length = 32 :=
  Digest.length_blake3 _

end Fingerprint
end InlineIcons
