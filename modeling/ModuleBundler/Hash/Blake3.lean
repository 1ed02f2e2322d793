/-!
# BLAKE3

The BLAKE3 hash of a byte string, in its default unkeyed mode with a 32-byte digest. The input
is cut into chunks of 1024 bytes, each chunk into blocks of 64 bytes; every block goes through
the compression function chained from the previous one, and the chunks' chaining values are
joined pairwise in a binary tree whose left subtree always holds the largest power of two of
chunks that leaves at least one chunk on the right. The root compression carries the root flag.
-/

namespace ModuleBundler

namespace Blake3

/-- The initial chaining value. -/
def iv : Array UInt32 :=
  #[0x6A09E667, 0xBB67AE85, 0x3C6EF372, 0xA54FF53A, 0x510E527F, 0x9B05688C, 0x1F83D9AB, 0x5BE0CD19]

/-- The order in which message words are taken in the next round. -/
def permutation : Array Nat := #[2, 6, 3, 10, 7, 0, 4, 13, 1, 11, 12, 5, 9, 14, 15, 8]

/-- Flag of a chunk's first block. -/
def chunkStart : UInt32 := 1
/-- Flag of a chunk's last block. -/
def chunkEnd : UInt32 := 2
/-- Flag of a parent node. -/
def parentFlag : UInt32 := 4
/-- Flag of the root compression. -/
def rootFlag : UInt32 := 8

/-- Rotate right by `n` bits. -/
def rotr (x : UInt32) (n : UInt32) : UInt32 := (x >>> n) ||| (x <<< (32 - n))

/-- The quarter-round on four positions of the state, mixing in two message words. -/
def mix (s : Array UInt32) (a b c d : Nat) (mx my : UInt32) : Array UInt32 :=
  let va := s.getD a 0 + s.getD b 0 + mx
  let vd := rotr (s.getD d 0 ^^^ va) 16
  let vc := s.getD c 0 + vd
  let vb := rotr (s.getD b 0 ^^^ vc) 12
  let va := va + vb + my
  let vd := rotr (vd ^^^ va) 8
  let vc := vc + vd
  let vb := rotr (vb ^^^ vc) 7
  ((((s.setIfInBounds a va).setIfInBounds b vb).setIfInBounds c vc).setIfInBounds d vd)

/-- One round: the columns, then the diagonals. -/
def round (s : Array UInt32) (m : Array UInt32) : Array UInt32 :=
  let w (i : Nat) := m.getD i 0
  let s := mix s 0 4 8 12 (w 0) (w 1)
  let s := mix s 1 5 9 13 (w 2) (w 3)
  let s := mix s 2 6 10 14 (w 4) (w 5)
  let s := mix s 3 7 11 15 (w 6) (w 7)
  let s := mix s 0 5 10 15 (w 8) (w 9)
  let s := mix s 1 6 11 12 (w 10) (w 11)
  let s := mix s 2 7 8 13 (w 12) (w 13)
  mix s 3 4 9 14 (w 14) (w 15)

/-- The message words in the order of the next round. -/
def permute (m : Array UInt32) : Array UInt32 := permutation.map fun i => m.getD i 0

/-- The compression function: sixteen output words, the first eight of which are the next
chaining value. -/
def compress (cv : Array UInt32) (block : Array UInt32) (counter : Nat) (len : Nat) (flags : UInt32) :
    Array UInt32 :=
  let start := cv ++ iv.extract 0 4 ++
    #[(counter % Nat.pow 2 32).toUInt32, (counter / Nat.pow 2 32 % Nat.pow 2 32).toUInt32, len.toUInt32, flags]
  let rounds := (List.range 7).foldl (fun (st, m) i =>
    (round st m, if i < 6 then permute m else m)) (start, block)
  let s := rounds.1
  (Array.range 8).map (fun i => s.getD i 0 ^^^ s.getD (i + 8) 0)
    ++ (Array.range 8).map (fun i => s.getD (i + 8) 0 ^^^ cv.getD i 0)

/-- Sixteen little-endian words of a block of at most 64 bytes, padded with zeros. -/
def blockWords (bytes : List UInt8) : Array UInt32 :=
  let padded := bytes ++ List.replicate (64 - bytes.length) 0
  (Array.range 16).map fun i =>
    let b (k : Nat) : UInt32 := (padded.getD (4 * i + k) 0).toUInt32
    b 0 ||| (b 1 <<< 8) ||| (b 2 <<< 16) ||| (b 3 <<< 24)

/-- Cut a list into pieces of `n` elements, the last one possibly shorter; at least one piece. -/
def pieces {α : Type} (n : Nat) (xs : List α) : List (List α) :=
  go xs.length xs
where
  go : Nat → List α → List (List α)
    | 0, _ => [[]]
    | fuel + 1, xs =>
      if xs.length ≤ n then [xs] else xs.take n :: go fuel (xs.drop n)

/-- The last compression of a node, not yet done: the chaining value going in, the block, the
counter, the block length and the flags. -/
structure Pending where
  cv : Array UInt32
  block : Array UInt32
  counter : Nat
  len : Nat
  flags : UInt32

/-- The chaining value a pending compression gives. -/
def Pending.chainingValue (p : Pending) (extra : UInt32) : Array UInt32 :=
  (compress p.cv p.block p.counter p.len (p.flags ||| extra)).extract 0 8

/-- A chunk up to its last block, which is left pending. -/
def chunkPending (counter : Nat) (bytes : List UInt8) : Pending :=
  let blocks := pieces 64 bytes
  let n := blocks.length
  let (cv, last) := (blocks.zipIdx).foldl (fun (cv, last) (blk, i) =>
    let flags := (if i = 0 then chunkStart else 0) ||| (if i + 1 = n then chunkEnd else 0)
    if i + 1 = n then (cv, some (blk, flags))
    else ((compress cv (blockWords blk) counter 64 flags).extract 0 8, last)) (iv, none)
  match last with
  | some (blk, flags) => ⟨cv, blockWords blk, counter, blk.length, flags⟩
  | none => ⟨cv, blockWords [], counter, 0, chunkStart ||| chunkEnd⟩

/-- The largest power of two strictly below `n`, for `n ≥ 2`. -/
def leftChunks (n : Nat) : Nat := Nat.pow 2 (n - 1).log2

/-- The pending root of the subtree over chunks numbered from `first`. -/
def subtree (chunks : List (List UInt8)) (first : Nat) : Pending :=
  go chunks.length chunks first
where
  go : Nat → List (List UInt8) → Nat → Pending
    | 0, cs, first => chunkPending first (cs.headD [])
    | fuel + 1, cs, first =>
      if cs.length ≤ 1 then chunkPending first (cs.headD [])
      else
        let k := leftChunks cs.length
        let left := (go fuel (cs.take k) first).chainingValue 0
        let right := (go fuel (cs.drop k) (first + k)).chainingValue 0
        ⟨iv, left ++ right, 0, 64, parentFlag⟩

/-- The 32-byte digest. -/
def hash (bytes : List UInt8) : List UInt8 :=
  let root := (subtree (pieces 1024 bytes) 0).chainingValue rootFlag
  root.toList.flatMap fun (w : UInt32) => [w.toUInt8, (w >>> 8).toUInt8, (w >>> 16).toUInt8, (w >>> 24).toUInt8]

/-- The lowercase hex digit of a number below sixteen. -/
def hexDigit (n : Nat) : Char := if n < 10 then Char.ofNat (48 + n) else Char.ofNat (87 + n)

/-- Two lowercase hex digits per byte. -/
def hex (bytes : List UInt8) : String :=
  String.ofList (bytes.flatMap fun b => [hexDigit (b.toNat / 16), hexDigit (b.toNat % 16)])

/-- The digest as hex text. -/
def hexDigest (bytes : List UInt8) : String := hex (hash bytes)

/-- Eight little-endian bytes of a length. -/
def lengthBytes (n : Nat) : List UInt8 := (List.range 8).map fun i => (n / Nat.pow 2 (8 * i) % 256).toUInt8

/-- The bytes a list of text parts is hashed as: each part preceded by its byte length as eight
little-endian bytes, so that different lists of parts never feed the same bytes. -/
def keyBytes (parts : List String) : List UInt8 :=
  parts.flatMap fun p => lengthBytes p.utf8ByteSize ++ p.toUTF8.toList

/-- The digest of text parts, as hex text. -/
def keyOf (parts : List String) : String := hexDigest (keyBytes parts)

end Blake3

end ModuleBundler
