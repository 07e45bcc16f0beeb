import DeviceGateway.Bytes

/-!
# BLAKE3

The hash behind frame checksums. Data is cut into chunks of 1024 octets and chunks into blocks of
64. Each chunk is folded block by block through the compression function; the chunk results are
then combined pairwise in a binary tree whose left subtree holds the largest power of two of
chunks that leaves something for the right. Only the first output word is needed here.
-/

namespace DeviceGateway.Checksum.Blake3

/-- Eight words: the chaining value that one compression hands to the next. -/
structure Chain where
  (h0 h1 h2 h3 h4 h5 h6 h7 : UInt32)
  deriving Inhabited

/-- Sixteen words: a message block, or the working state of a compression. -/
structure Block where
  (w0 w1 w2 w3 w4 w5 w6 w7 w8 w9 w10 w11 w12 w13 w14 w15 : UInt32)
  deriving Inhabited

/-- The initial chaining value. -/
def iv : Chain :=
  ⟨0x6A09E667, 0xBB67AE85, 0x3C6EF372, 0xA54FF53A, 0x510E527F, 0x9B05688C, 0x1F83D9AB, 0x5BE0CD19⟩

/-- Marks the first block of a chunk. -/
def chunkStart : UInt32 := 1
/-- Marks the last block of a chunk. -/
def chunkEnd : UInt32 := 2
/-- Marks a block made of two chaining values. -/
def parent : UInt32 := 4
/-- Marks the one compression that yields the output. -/
def root : UInt32 := 8

@[inline] def rotateRight (x : UInt32) (k : UInt32) : UInt32 := (x >>> k) ||| (x <<< (32 - k))

/-- The quarter round: four words of state are mixed with two words of message. -/
@[inline] def mix (a b c d x y : UInt32) : UInt32 × UInt32 × UInt32 × UInt32 :=
  let a := a + b + x
  let d := rotateRight (d ^^^ a) 16
  let c := c + d
  let b := rotateRight (b ^^^ c) 12
  let a := a + b + y
  let d := rotateRight (d ^^^ a) 8
  let c := c + d
  let b := rotateRight (b ^^^ c) 7
  (a, b, c, d)

/-- One round: the four columns, then the four diagonals. -/
def round (s m : Block) : Block :=
  let (a0, b0, c0, d0) := mix s.w0 s.w4 s.w8 s.w12 m.w0 m.w1
  let (a1, b1, c1, d1) := mix s.w1 s.w5 s.w9 s.w13 m.w2 m.w3
  let (a2, b2, c2, d2) := mix s.w2 s.w6 s.w10 s.w14 m.w4 m.w5
  let (a3, b3, c3, d3) := mix s.w3 s.w7 s.w11 s.w15 m.w6 m.w7
  let (a0, b1, c2, d3) := mix a0 b1 c2 d3 m.w8 m.w9
  let (a1, b2, c3, d0) := mix a1 b2 c3 d0 m.w10 m.w11
  let (a2, b3, c0, d1) := mix a2 b3 c0 d1 m.w12 m.w13
  let (a3, b0, c1, d2) := mix a3 b0 c1 d2 m.w14 m.w15
  ⟨a0, a1, a2, a3, b0, b1, b2, b3, c0, c1, c2, c3, d0, d1, d2, d3⟩

/-- The order in which the next round reads the message. -/
def permute (m : Block) : Block :=
  ⟨m.w2, m.w6, m.w3, m.w10, m.w7, m.w0, m.w4, m.w13, m.w1, m.w11, m.w12, m.w5, m.w9, m.w14, m.w15,
    m.w8⟩

/-- `n` rounds, the message permuted between them. -/
def rounds : Nat → Block → Block → Block
  | 0, s, _ => s
  | n + 1, s, m => rounds n (round s m) (permute m)

/-- **Compression.** Folds a block into a chaining value. The counter numbers the chunk, the
length counts the octets of the block that are data, the flags say where the block stands. -/
def compress (h : Chain) (m : Block) (counter : UInt64) (length flags : UInt32) : Chain :=
  let s := rounds 7 ⟨h.h0, h.h1, h.h2, h.h3, h.h4, h.h5, h.h6, h.h7, iv.h0, iv.h1, iv.h2, iv.h3,
    counter.toUInt32, (counter >>> 32).toUInt32, length, flags⟩ m
  ⟨s.w0 ^^^ s.w8, s.w1 ^^^ s.w9, s.w2 ^^^ s.w10, s.w3 ^^^ s.w11, s.w4 ^^^ s.w12, s.w5 ^^^ s.w13,
    s.w6 ^^^ s.w14, s.w7 ^^^ s.w15⟩

/-- A compression that waits for its flags: it becomes either the output or a chaining value. -/
structure Node where
  chain : Chain
  block : Block
  counter : UInt64
  length : UInt32
  flags : UInt32

namespace Node

/-- What an inner node hands upwards. -/
def chainingValue (n : Node) : Chain := compress n.chain n.block n.counter n.length n.flags

/-- The first word of output when the node is the root. -/
def output (n : Node) : UInt32 :=
  (compress n.chain n.block n.counter n.length (n.flags ||| root)).h0

/-- The node above two others: its block is their two chaining values. -/
def join (l r : Node) : Node :=
  let a := l.chainingValue
  let b := r.chainingValue
  { chain := iv
    block := ⟨a.h0, a.h1, a.h2, a.h3, a.h4, a.h5, a.h6, a.h7, b.h0, b.h1, b.h2, b.h3, b.h4, b.h5,
      b.h6, b.h7⟩
    counter := 0, length := 64, flags := parent }

end Node

/-- The octet at a position, zero past the end. -/
@[inline] def octet (data : ByteArray) (i : Nat) : UInt32 :=
  if h : i < data.size then (data[i]).toUInt32 else 0

@[inline] def word (data : ByteArray) (i : Nat) : UInt32 :=
  octet data i ||| (octet data (i + 1) <<< 8) ||| (octet data (i + 2) <<< 16) |||
    (octet data (i + 3) <<< 24)

/-- The block at a position, filled up with zeros. -/
def block (data : ByteArray) (i : Nat) : Block :=
  ⟨word data i, word data (i + 4), word data (i + 8), word data (i + 12), word data (i + 16),
    word data (i + 20), word data (i + 24), word data (i + 28), word data (i + 32),
    word data (i + 36), word data (i + 40), word data (i + 44), word data (i + 48),
    word data (i + 52), word data (i + 56), word data (i + 60)⟩

/-- The blocks of one chunk from a position on, `n` of them before the last; the last one is left
as a node, since only its place in the tree decides its flags. -/
def chunkFrom (data : ByteArray) (counter : UInt64) (stop : Nat) :
    Nat → Nat → UInt32 → Chain → Node
  | 0, i, flags, h =>
    { chain := h, block := block data i, counter, length := UInt32.ofNat (stop - i),
      flags := flags ||| chunkEnd }
  | n + 1, i, flags, h =>
    chunkFrom data counter stop n (i + 64) 0 (compress h (block data i) counter 64 flags)

/-- The node of the chunk with a number: at most 1024 octets, at least one block. -/
def chunk (data : ByteArray) (k : Nat) : Node :=
  let start := k * 1024
  let stop := min data.size (start + 1024)
  chunkFrom data (UInt64.ofNat k) stop ((stop - start + 63) / 64 - 1) start chunkStart iv

/-- How many of `n` chunks are in the left subtree: the largest power of two below. -/
def leftCount (n : Nat) : Nat := 1 <<< (n - 1).log2

theorem leftCount_lt {n : Nat} (h : 1 < n) : leftCount n < n := by
  have : leftCount n ≤ n - 1 := by
    rw [leftCount, Nat.one_shiftLeft]
    exact Nat.log2_self_le (by omega)
  omega

theorem leftCount_pos (n : Nat) : 0 < leftCount n := by
  rw [leftCount, Nat.one_shiftLeft]
  exact Nat.pow_pos (by decide)

theorem sub_leftCount_lt {n : Nat} (h : 1 < n) : n - leftCount n < n :=
  Nat.sub_lt (Nat.lt_trans Nat.zero_lt_one h) (leftCount_pos n)

/-- The node over `n` chunks from chunk `k` on. -/
def tree (data : ByteArray) (k n : Nat) : Node :=
  if n ≤ 1 then chunk data k
  else (tree data k (leftCount n)).join (tree data (k + leftCount n) (n - leftCount n))
termination_by n
decreasing_by
  · exact leftCount_lt (Nat.lt_of_not_le ‹_›)
  · exact sub_leftCount_lt (Nat.lt_of_not_le ‹_›)

/-- **The first word of the hash**: its first four octets as a little-endian number. -/
def firstWord (data : ByteArray) : UInt32 :=
  (tree data 0 (max 1 ((data.size + 1023) / 1024))).output

end DeviceGateway.Checksum.Blake3
