/-!
The BLAKE3 hash: chunks of 1024 bytes are compressed block by block, and the results are joined
pairwise in a tree whose left side is complete.
-/
namespace InlineIcons.Digest

structure Quad where
  a : UInt32
  b : UInt32
  c : UInt32
  d : UInt32

/-- What one compression hands on to the next: eight words. -/
structure Chaining where
  low : Quad
  high : Quad

def Chaining.words (h : Chaining) : List UInt32 :=
  [h.low.a, h.low.b, h.low.c, h.low.d, h.high.a, h.high.b, h.high.c, h.high.d]

def Chaining.initial : Chaining :=
  ⟨⟨0x6A09E667, 0xBB67AE85, 0x3C6EF372, 0xA54FF53A⟩, ⟨0x510E527F, 0x9B05688C, 0x1F83D9AB, 0x5BE0CD19⟩⟩

def rotateRight (w n : UInt32) : UInt32 := (w >>> n) ||| (w <<< (32 - n))

def Quad.mix (q : Quad) (x y : UInt32) : Quad :=
  let a := q.a + q.b + x
  let d := rotateRight (q.d ^^^ a) 16
  let c := q.c + d
  let b := rotateRight (q.b ^^^ c) 12
  let a := a + b + y
  let d := rotateRight (d ^^^ a) 8
  let c := c + d
  let b := rotateRight (b ^^^ c) 7
  ⟨a, b, c, d⟩

structure Message where
  m0 : UInt32
  m1 : UInt32
  m2 : UInt32
  m3 : UInt32
  m4 : UInt32
  m5 : UInt32
  m6 : UInt32
  m7 : UInt32
  m8 : UInt32
  m9 : UInt32
  m10 : UInt32
  m11 : UInt32
  m12 : UInt32
  m13 : UInt32
  m14 : UInt32
  m15 : UInt32

/-- The order of the words changes from round to round. -/
def Message.permute (m : Message) : Message :=
  ⟨m.m2, m.m6, m.m3, m.m10, m.m7, m.m0, m.m4, m.m13, m.m1, m.m11, m.m12, m.m5, m.m9, m.m14, m.m15, m.m8⟩

/-- Four columns of four words. -/
structure State where
  first : Quad
  second : Quad
  third : Quad
  fourth : Quad

namespace State

/-- The diagonals, each from its word in the first row on. -/
def diagonals (s : State) : State :=
  ⟨⟨s.first.a, s.second.b, s.third.c, s.fourth.d⟩, ⟨s.second.a, s.third.b, s.fourth.c, s.first.d⟩,
    ⟨s.third.a, s.fourth.b, s.first.c, s.second.d⟩, ⟨s.fourth.a, s.first.b, s.second.c, s.third.d⟩⟩

/-- The columns of a state that is given by its diagonals. -/
def columns (s : State) : State :=
  ⟨⟨s.first.a, s.fourth.b, s.third.c, s.second.d⟩, ⟨s.second.a, s.first.b, s.fourth.c, s.third.d⟩,
    ⟨s.third.a, s.second.b, s.first.c, s.fourth.d⟩, ⟨s.fourth.a, s.third.b, s.second.c, s.first.d⟩⟩

def mixRound (s : State) (m : Message) : State :=
  let s := diagonals ⟨s.first.mix m.m0 m.m1, s.second.mix m.m2 m.m3, s.third.mix m.m4 m.m5,
    s.fourth.mix m.m6 m.m7⟩
  columns ⟨s.first.mix m.m8 m.m9, s.second.mix m.m10 m.m11, s.third.mix m.m12 m.m13,
    s.fourth.mix m.m14 m.m15⟩

def mixRounds : Nat → State → Message → State
  | 0, s, _ => s
  | n + 1, s, m => mixRounds n (s.mixRound m) m.permute

end State

structure Block where
  chaining : Chaining
  message : Message
  counter : UInt64
  length : UInt32
  flags : UInt32

def flagChunkStart : UInt32 := 1
def flagChunkEnd : UInt32 := 2
def flagParent : UInt32 := 4
def flagRoot : UInt32 := 8

/-- The first half of the compressed state. -/
def Block.compress (block : Block) : Chaining :=
  let h := block.chaining
  let v := Chaining.initial.low
  let s : State := ⟨⟨h.low.a, h.high.a, v.a, block.counter.toUInt32⟩,
    ⟨h.low.b, h.high.b, v.b, (block.counter >>> 32).toUInt32⟩,
    ⟨h.low.c, h.high.c, v.c, block.length⟩, ⟨h.low.d, h.high.d, v.d, block.flags⟩⟩
  let s := s.mixRounds 7 block.message
  ⟨⟨s.first.a ^^^ s.first.c, s.second.a ^^^ s.second.c, s.third.a ^^^ s.third.c, s.fourth.a ^^^ s.fourth.c⟩,
    ⟨s.first.b ^^^ s.first.d, s.second.b ^^^ s.second.d, s.third.b ^^^ s.third.d, s.fourth.b ^^^ s.fourth.d⟩⟩

/-- A word from the first four bytes, the lowest first; bytes that are missing count as zero. -/
def wordOf (bytes : List UInt8) : UInt32 :=
  (bytes.getD 0 0).toUInt32 ||| ((bytes.getD 1 0).toUInt32 <<< 8) |||
    ((bytes.getD 2 0).toUInt32 <<< 16) ||| ((bytes.getD 3 0).toUInt32 <<< 24)

def Message.ofBytes (bytes : List UInt8) : Message :=
  let w n := wordOf (bytes.drop (4 * n))
  ⟨w 0, w 1, w 2, w 3, w 4, w 5, w 6, w 7, w 8, w 9, w 10, w 11, w 12, w 13, w 14, w 15⟩

/-- The last block of a chunk, with the blocks before it compressed. -/
def lastBlock (counter : UInt64) (chaining : Chaining) (flags : UInt32) (bytes : List UInt8) : Block :=
  if bytes.length ≤ 64 then
    ⟨chaining, .ofBytes bytes, counter, bytes.length.toUInt32, flags ||| flagChunkEnd⟩
  else
    let block : Block := ⟨chaining, .ofBytes (bytes.take 64), counter, 64, flags⟩
    lastBlock counter block.compress 0 (bytes.drop 64)
termination_by bytes.length
decreasing_by simp; omega

def chunkBlock (counter : UInt64) (bytes : List UInt8) : Block :=
  lastBlock counter .initial flagChunkStart bytes

/-- The chunks of an input; the empty input has one empty chunk. -/
def chunks (bytes : List UInt8) : List (List UInt8) :=
  if bytes.length ≤ 1024 then [bytes] else bytes.take 1024 :: chunks (bytes.drop 1024)
termination_by bytes.length
decreasing_by simp; omega

def parentBlock (left right : Block) : Block :=
  let l := left.compress
  let r := right.compress
  ⟨.initial, ⟨l.low.a, l.low.b, l.low.c, l.low.d, l.high.a, l.high.b, l.high.c, l.high.d,
    r.low.a, r.low.b, r.low.c, r.low.d, r.high.a, r.high.b, r.high.c, r.high.d⟩, 0, 64, flagParent⟩

/-- The left side takes the largest power of two of chunks that leaves something for the right. -/
def leftCount (n : Nat) : Nat := 1 <<< Nat.log2 (n - 1)

theorem leftCount_pos (n : Nat) : 0 < leftCount n := by
  rw [leftCount, Nat.one_shiftLeft]
  exact Nat.two_pow_pos _

theorem leftCount_lt {n : Nat} (h : 2 ≤ n) : leftCount n < n := by
  have := Nat.log2_self_le (n := n - 1) (by omega)
  simp only [leftCount, Nat.one_shiftLeft]
  omega

/-- The block at the top of a tree over chunks, the first of which has the given number. -/
def treeBlock (first : Nat) (parts : List (List UInt8)) : Block :=
  if _h : parts.length ≤ 1 then chunkBlock first.toUInt64 (parts.headD [])
  else
    let n := leftCount parts.length
    parentBlock (treeBlock first (parts.take n)) (treeBlock (first + n) (parts.drop n))
termination_by parts.length
decreasing_by
  · have := leftCount_lt (n := parts.length) (by omega)
    simp only [List.length_take]; omega
  · have := leftCount_pos parts.length
    simp only [List.length_drop]; omega

def bytesOfWord (w : UInt32) : List UInt8 :=
  [w.toUInt8, (w >>> 8).toUInt8, (w >>> 16).toUInt8, (w >>> 24).toUInt8]

/-- The hash of some bytes, 32 bytes long. -/
def blake3 (bytes : List UInt8) : List UInt8 :=
  let top := treeBlock 0 (chunks bytes)
  { top with counter := 0, flags := top.flags ||| flagRoot }.compress.words.flatMap bytesOfWord

end InlineIcons.Digest
