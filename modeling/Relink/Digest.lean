import Relink.Text.Quoted

/-!
# Content digests

The digest of a sequence of bytes by BLAKE3: 256 bits, written as 64 hexadecimal digits.

The bytes are cut into chunks of 1024 bytes and these into blocks of 64. A chunk is a chain of
compressions, one per block; the chunks are the leaves of a binary tree in which each left half is as
full as possible. Joining neighbours level by level, with an odd last one carried over, builds this
tree.
-/

namespace Relink.Digest

/-- The sixteen words that a compression works on. -/
abbrev State := Vector UInt32 16

/-- The eight words that pass from one compression to the next. -/
abbrev Chain := Vector UInt32 8

def startChain : Chain :=
  #v[0x6a09e667, 0xbb67ae85, 0x3c6ef372, 0xa54ff53a, 0x510e527f, 0x9b05688c, 0x1f83d9ab, 0x5be0cd19]

/-- The place from which each word of the next round's block is taken. -/
def schedule : Vector (Fin 16) 16 := #v[2, 6, 3, 10, 7, 0, 4, 13, 1, 11, 12, 5, 9, 14, 15, 8]

def rotateRight (x n : UInt32) : UInt32 := (x >>> n) ||| (x <<< (32 - n))

/-- Mixes two words into four words of the state. -/
def mix (s : State) (a b c d : Fin 16) (x y : UInt32) : State :=
  let va := s[a] + s[b] + x
  let vd := rotateRight (s[d] ^^^ va) 16
  let vc := s[c] + vd
  let vb := rotateRight (s[b] ^^^ vc) 12
  let va := va + vb + y
  let vd := rotateRight (vd ^^^ va) 8
  let vc := vc + vd
  let vb := rotateRight (vb ^^^ vc) 7
  (((s.set a va).set b vb).set c vc).set d vd

/-- Mixes a block into the state, along the columns and then along the diagonals. -/
def round (s : State) (m : State) : State :=
  let s := mix s 0 4 8 12 m[0] m[1]
  let s := mix s 1 5 9 13 m[2] m[3]
  let s := mix s 2 6 10 14 m[4] m[5]
  let s := mix s 3 7 11 15 m[6] m[7]
  let s := mix s 0 5 10 15 m[8] m[9]
  let s := mix s 1 6 11 12 m[10] m[11]
  let s := mix s 2 7 8 13 m[12] m[13]
  mix s 3 4 9 14 m[14] m[15]

/-- Some rounds, with the words of the block in a new order before each round but the first. -/
def rounds : Nat → State → State → State
  | 0, s, _ => s
  | n + 1, s, m => rounds n (round s m) (schedule.map fun i => m[i])

/-- A compression before it is carried out. -/
structure Node where
  chain : Chain
  block : State
  counter : UInt64
  length : UInt32
  flags : UInt32

/-! The flags of a compression tell what it stands for. -/

def firstFlag : UInt32 := 1
def lastFlag : UInt32 := 2
def parentFlag : UInt32 := 4
def rootFlag : UInt32 := 8

namespace Node

/-- The chain behind a compression. -/
def compress (n : Node) : Chain :=
  let h := n.chain
  let s : State := #v[h[0], h[1], h[2], h[3], h[4], h[5], h[6], h[7],
    startChain[0], startChain[1], startChain[2], startChain[3],
    n.counter.toUInt32, (n.counter >>> 32).toUInt32, n.length, n.flags]
  let v := rounds 7 s n.block
  #v[v[0] ^^^ v[8], v[1] ^^^ v[9], v[2] ^^^ v[10], v[3] ^^^ v[11],
    v[4] ^^^ v[12], v[5] ^^^ v[13], v[6] ^^^ v[14], v[7] ^^^ v[15]]

/-- The compression that joins two. -/
def join (a b : Node) : Node :=
  let l := a.compress
  let r := b.compress
  let block : State := #v[l[0], l[1], l[2], l[3], l[4], l[5], l[6], l[7],
    r[0], r[1], r[2], r[3], r[4], r[5], r[6], r[7]]
  ⟨startChain, block, 0, 64, parentFlag⟩

end Node

/-! ## Chunks -/

/-- The word that some bytes encode, the lowest byte first. -/
def wordOf : List UInt8 → UInt32
  | [] => 0
  | b :: bs => b.toUInt32 + (wordOf bs <<< 8)

/-- The words of a block, with zeros behind its end. -/
def blockOf (bytes : List UInt8) : State :=
  Vector.ofFn fun i => wordOf ((bytes.drop (4 * i.val)).take 4)

/-- The compression of the last block of a chunk, behind those of the other blocks. The first argument
bounds the number of blocks. -/
def chunkFrom : Nat → UInt64 → Chain → UInt32 → List UInt8 → Node
  | 0, counter, chain, flags, bytes =>
    ⟨chain, blockOf bytes, counter, bytes.length.toUInt32, flags ||| lastFlag⟩
  | blocks + 1, counter, chain, flags, bytes =>
    if bytes.length ≤ 64 then ⟨chain, blockOf bytes, counter, bytes.length.toUInt32, flags ||| lastFlag⟩
    else
      let node : Node := ⟨chain, blockOf (bytes.take 64), counter, 64, flags⟩
      chunkFrom blocks counter node.compress 0 (bytes.drop 64)

/-- The chunk with the given number. -/
def chunk (counter : UInt64) (bytes : List UInt8) : Node :=
  chunkFrom 15 counter startChain firstFlag bytes

/-- The chunks behind the first `counter` ones. -/
def chunks (counter : UInt64) (bytes : List UInt8) : List Node :=
  if bytes.length ≤ 1024 then [chunk counter bytes]
  else chunk counter (bytes.take 1024) :: chunks (counter + 1) (bytes.drop 1024)
termination_by bytes.length
decreasing_by simp; omega

/-! ## Tree -/

/-- Joins neighbours. -/
def joinPairs : List Node → List Node
  | a :: b :: rest => a.join b :: joinPairs rest
  | rest => rest

theorem length_joinPairs_le (nodes : List Node) : (joinPairs nodes).length ≤ nodes.length := by
  fun_induction joinPairs nodes with
  | case1 a b rest ih => simp only [List.length_cons]; omega
  | case2 rest => exact Nat.le_refl _


/-- The root of the tree over a node and those to its right. -/
def root (first : Node) (others : List Node) : Node :=
  match others with
  | [] => first
  | second :: rest => root (first.join second) (joinPairs rest)
termination_by others.length
decreasing_by
  have h := length_joinPairs_le rest
  simp only [List.length_cons]
  omega

/-- The eight words of the digest of some bytes. -/
def wordsOf (bytes : List UInt8) : Chain :=
  match chunks 0 bytes with
  | [] => startChain
  | first :: others =>
    let node := root first others
    { node with flags := node.flags ||| rootFlag, counter := 0 }.compress

/-! ## Text -/

/-- The digits of a byte. -/
def byteText (b : UInt8) : List Char := [hexDigit (b.toNat / 16), hexDigit (b.toNat % 16)]

/-- The digits of a word, the lowest byte first. -/
def wordText (w : UInt32) : List Char :=
  byteText w.toUInt8 ++ byteText (w >>> 8).toUInt8 ++ byteText (w >>> 16).toUInt8
    ++ byteText (w >>> 24).toUInt8

/-- The digest of some bytes as text. -/
def ofBytes (bytes : ByteArray) : String :=
  String.ofList ((wordsOf bytes.toList).toList.flatMap wordText)

/-- The digest of a text. -/
def ofText (text : String) : String := ofBytes text.toUTF8

end Relink.Digest
