import CommitPipeline.Bytes.BigEndian

/-!
# BLAKE3

The hash function BLAKE3 without a key, at its default output of 32 bytes. The input is cut into
chunks of 1024 bytes; each chunk is a chain of compressions over its blocks of 64 bytes; the
chunks are the leaves of a binary tree whose inner nodes compress the chaining values of their
two children. The last compression, at the root, is marked as such and gives the hash.
-/

namespace CommitPipeline.Blake3

/-- The initial chaining value. -/
def iv : Vector UInt32 8 :=
  #v[0x6A09E667, 0xBB67AE85, 0x3C6EF372, 0xA54FF53A, 0x510E527F, 0x9B05688C, 0x1F83D9AB, 0x5BE0CD19]

/-- Where each message word of a round comes from in the round before. -/
def permutation : Vector (Fin 16) 16 :=
  #v[2, 6, 3, 10, 7, 0, 4, 13, 1, 11, 12, 5, 9, 14, 15, 8]

/-- What a compression is part of. -/
structure Flags where
  /-- The first block of a chunk. -/
  chunkStart : Bool := false
  /-- The last block of a chunk. -/
  chunkEnd : Bool := false
  /-- An inner node of the tree. -/
  parent : Bool := false
  /-- The last compression of the whole input. -/
  root : Bool := false
  deriving DecidableEq

/-- The word that tells a compression its flags. -/
def Flags.word (f : Flags) : UInt32 :=
  (if f.chunkStart then 1 else 0) ||| (if f.chunkEnd then 2 else 0) |||
    (if f.parent then 4 else 0) ||| (if f.root then 8 else 0)

/-- A word turned to the right by `n` bits, `n` between 1 and 31. -/
def rotateRight (w n : UInt32) : UInt32 := (w >>> n) ||| (w <<< (32 - n))

/-- Mixes two message words into four words of the state. -/
def mix (v : Vector UInt32 16) (a b c d : Fin 16) (x y : UInt32) : Vector UInt32 16 :=
  let v := v.set a (v[a] + v[b] + x)
  let v := v.set d (rotateRight (v[d] ^^^ v[a]) 16)
  let v := v.set c (v[c] + v[d])
  let v := v.set b (rotateRight (v[b] ^^^ v[c]) 12)
  let v := v.set a (v[a] + v[b] + y)
  let v := v.set d (rotateRight (v[d] ^^^ v[a]) 8)
  let v := v.set c (v[c] + v[d])
  v.set b (rotateRight (v[b] ^^^ v[c]) 7)

/-- One round: the four columns of the state, then its four diagonals. -/
def mixAll (v m : Vector UInt32 16) : Vector UInt32 16 :=
  let v := mix v 0 4 8 12 m[0] m[1]
  let v := mix v 1 5 9 13 m[2] m[3]
  let v := mix v 2 6 10 14 m[4] m[5]
  let v := mix v 3 7 11 15 m[6] m[7]
  let v := mix v 0 5 10 15 m[8] m[9]
  let v := mix v 1 6 11 12 m[10] m[11]
  let v := mix v 2 7 8 13 m[12] m[13]
  mix v 3 4 9 14 m[14] m[15]

/-- The message words in the order of the next round. -/
def permute (m : Vector UInt32 16) : Vector UInt32 16 := permutation.map fun i => m[i]

/-- Runs a number of rounds. -/
def rounds : Nat → Vector UInt32 16 → Vector UInt32 16 → Vector UInt32 16
  | 0, v, _ => v
  | n + 1, v, m => rounds n (mixAll v m) (permute m)

/-- A compression that is yet to be run: with or without the mark of the root. -/
structure Node where
  /-- The chaining value it starts from. -/
  chaining : Vector UInt32 8
  /-- The message block. -/
  block : Vector UInt32 16
  /-- The number of the chunk, zero for an inner node. -/
  counter : UInt64
  /-- How many bytes of the block are input. -/
  length : UInt32
  /-- The node's flags apart from the root's. -/
  flags : Flags

/-- The chaining value that a compression gives. -/
def Node.compress (node : Node) (root : Bool) : Vector UInt32 8 :=
  let h := node.chaining
  let start : Vector UInt32 16 :=
    #v[h[0], h[1], h[2], h[3], h[4], h[5], h[6], h[7], iv[0], iv[1], iv[2], iv[3],
      node.counter.toUInt32, (node.counter >>> 32).toUInt32, node.length,
      { node.flags with root }.word]
  let v := rounds 7 start node.block
  Vector.ofFn fun i : Fin 8 => v[i.val] ^^^ v[i.val + 8]

/-- The four bytes of a word, least significant first. -/
def wordBytes (w : UInt32) : Bytes :=
  [w.toUInt8, (w >>> 8).toUInt8, (w >>> 16).toUInt8, (w >>> 24).toUInt8]

/-- Sixteen words from up to 64 bytes, filled up with zeros. -/
def blockWords (bytes : Bytes) : Vector UInt32 16 :=
  let padded := bytes.toArray
  Vector.ofFn fun i : Fin 16 =>
    let byte (k : Nat) : UInt32 := (padded.getD (4 * i.val + k) 0).toUInt32
    byte 0 ||| (byte 1 <<< 8) ||| (byte 2 <<< 16) ||| (byte 3 <<< 24)

/-- A byte string cut into a number of pieces of one size and the rest behind them. -/
def cut (size : Nat) : Nat → Bytes → List Bytes
  | 0, bytes => [bytes]
  | n + 1, bytes => bytes.take size :: cut size n (bytes.drop size)

/-- A byte string cut into pieces of one size, the last one of at most that size and empty only if
the whole is. -/
def pieces (size : Nat) (bytes : Bytes) : List Bytes :=
  cut size ((bytes.length - 1) / size) bytes

/-- The last compression of a chunk given by its blocks, the chaining value and whether its first
block is still to come. -/
def chunkNode (counter : UInt64) (chaining : Vector UInt32 8) (first : Bool) :
    List Bytes → Node
  | [] =>
    { chaining, block := blockWords [], counter, length := 0,
      flags := { chunkStart := first, chunkEnd := true } }
  | [block] =>
    { chaining, block := blockWords block, counter, length := UInt32.ofNat block.length,
      flags := { chunkStart := first, chunkEnd := true } }
  | block :: rest =>
    -- Only the last block of a chunk can become the root, so this one is compressed at once.
    let node : Node :=
      { chaining, block := blockWords block, counter, length := UInt32.ofNat block.length,
        flags := { chunkStart := first } }
    chunkNode counter (node.compress false) false rest

/-- The inner node over two children. -/
def parentNode (left right : Node) : Node :=
  let l := left.compress false
  let r := right.compress false
  { chaining := iv
    block := #v[l[0], l[1], l[2], l[3], l[4], l[5], l[6], l[7],
      r[0], r[1], r[2], r[3], r[4], r[5], r[6], r[7]]
    counter := 0
    length := 64
    flags := { parent := true } }

/-- One level of the tree: neighbours are joined, and an odd last node moves up as it is. -/
def joinPairs : List Node → List Node
  | left :: right :: rest => parentNode left right :: joinPairs rest
  | nodes => nodes

/-- The root of the tree over a first leaf and the leaves after it, at most a number of levels up.
As many levels as there are further leaves are enough. -/
def climb : Nat → Node → List Node → Node
  | 0, first, _ => first
  | _ + 1, first, [] => first
  | levels + 1, first, second :: rest =>
    climb levels (parentNode first second) (joinPairs rest)

/-- The leaf of a chunk given by its number and bytes. -/
def leaf (counter : Nat) (chunk : Bytes) : Node :=
  chunkNode (UInt64.ofNat counter) iv true (pieces 64 chunk)

/-- The leaves of chunks, the first of them with a given number. -/
def leaves : Nat → List Bytes → List Node
  | _, [] => []
  | counter, chunk :: rest => leaf counter chunk :: leaves (counter + 1) rest

/-- The root node of an input. -/
def root (input : Bytes) : Node :=
  match leaves 0 (pieces 1024 input) with
  | [] => leaf 0 []
  | first :: others => climb others.length first others

/-- The hash of an input. -/
def hash (input : Bytes) : Bytes := ((root input).compress true).toList.flatMap wordBytes

/-- A hash is 32 bytes long, whatever is hashed. -/
theorem length_hash (input : Bytes) : (hash input).length = 32 := by
  have h : ∀ words : List UInt32, (words.flatMap wordBytes).length = 4 * words.length := by
    intro words
    induction words with
    | nil => rfl
    | cons w rest ih =>
      rw [List.flatMap_cons, List.length_append, ih, List.length_cons]
      simp only [wordBytes, List.length_cons, List.length_nil]
      omega
  rw [hash, h, Vector.length_toList]

end CommitPipeline.Blake3
