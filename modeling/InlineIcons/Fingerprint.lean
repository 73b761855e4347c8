import InlineIcons.Digest.Blake3
import InlineIcons.Json.Basic
import InlineIcons.Text.Utf8

/-!
Fingerprints of contents. Several parts are framed before they are hashed: each is preceded by its
length, so no two sequences of parts make the same stream.
-/
namespace InlineIcons

structure Fingerprint where
  bytes : List UInt8
  deriving DecidableEq, Repr, Inhabited

namespace Fingerprint

def ofBytes (bytes : List UInt8) : Fingerprint := ⟨Digest.blake3 bytes⟩

def hexByte (b : UInt8) : List Char := [Json.hexDigit (b.toNat / 16), Json.hexDigit (b.toNat % 16)]

def short (f : Fingerprint) : String := String.ofList ((f.bytes.take 8).flatMap hexByte)

/-- One part of what a fingerprint is taken of. -/
inductive Part where
  | bytes (content : List UInt8)
  | text (content : String)
  | fingerprint (content : Fingerprint)
  | value (content : Json)
  deriving Repr

def Part.content : Part → List UInt8
  | bytes content => content
  | text content => Text.utf8 content
  | fingerprint content => content.bytes
  | value content => Text.utf8 content.compact

/-- A number in eight bytes, the lowest first. -/
def lengthBytes (n : Nat) : List UInt8 := (List.range 8).map fun i => (n >>> (8 * i)).toUInt8

def frame (content : List UInt8) : List UInt8 := lengthBytes content.length ++ content

/-- The bytes that are hashed for a sequence of parts. -/
def stream (parts : List Part) : List UInt8 := parts.flatMap fun p => frame p.content

def ofParts (parts : List Part) : Fingerprint := ofBytes (stream parts)

def ofValue (j : Json) : Fingerprint := ofParts [.value j]

end Fingerprint
end InlineIcons
