import WebSocketFiles.Model.Digest

/-!
# The hash object

`SecureHashAlgorithm` of `sha1_portable.cpp` once more, with its storage.  The block
`M` and the schedule `W` share a union, which is filled byte by byte, swapped and
expanded in place, and initialised by nothing; `SHA1HashString` of `Model.Digest`
keeps only the filled part of the block.

The machine is little-endian.  A byte that does not fit the block is undefined
behaviour.
-/

namespace WebSocketFiles

namespace SHA1

/-- The bytes of the union: `M` is the first 64 of its 320. -/
structure Block where
  M : Nat → UInt8

/-- A word from its bytes, the least significant first. -/
def leWord (a b c d : UInt8) : UInt32 :=
  a.toUInt32 ||| (b.toUInt32 <<< 8) ||| (c.toUInt32 <<< 16) ||| (d.toUInt32 <<< 24)

/-- The bytes of a word in memory. -/
def leBytes (w : UInt32) : Bytes :=
  [w.toUInt8, (w >>> 8).toUInt8, (w >>> 16).toUInt8, (w >>> 24).toUInt8]

/-- `W[t]`. -/
def Block.W (u : Block) (t : Nat) : UInt32 :=
  leWord (u.M (4 * t)) (u.M (4 * t + 1)) (u.M (4 * t + 2)) (u.M (4 * t + 3))

/-- `W[t] = w`. -/
def Block.setW (u : Block) (t : Nat) (w : UInt32) : Block :=
  ⟨fun i => if i / 4 = t then (leBytes w).getD (i % 4) 0 else u.M i⟩

/-- `M[i] = d`. -/
def Block.setM (u : Block) (i : Nat) (d : UInt8) : Block :=
  ⟨fun j => if j = i then d else u.M j⟩

/-- `swapends`. -/
def swapends (t : UInt32) : UInt32 :=
  ((t &&& 0xff000000) >>> 24) ||| ((t &&& 0xff0000) >>> 8) ||| ((t &&& 0xff00) <<< 8) |||
    ((t &&& 0xff) <<< 24)

/-- `class SecureHashAlgorithm`; `vars` is `A`, `B`, `C`, `D`, `E`. -/
structure HashObject where
  vars : List UInt32
  H : List UInt32
  block : Block
  cursor : Nat
  l : UInt32

namespace HashObject

/-- `Init`; the union keeps what it holds. -/
def init (sha : HashObject) : HashObject where
  vars := [0, 0, 0, 0, 0]
  H := [0x67452301, 0xefcdab89, 0x98badcfe, 0x10325476, 0xc3d2e1f0]
  block := sha.block
  cursor := 0
  l := 0

/-- `M[cursor++] = d`. -/
def put (sha : HashObject) (d : UInt8) : Except Abort HashObject :=
  if sha.cursor < 64 then
    .ok { sha with block := sha.block.setM sha.cursor d, cursor := sha.cursor + 1 }
  else .error .undefined

/-- `Process`. -/
def process (sha : HashObject) : HashObject :=
  -- a.
  let W := (List.range 16).foldl (fun W t => W.setW t (swapends (W.W t))) sha.block
  -- b.
  let W := (List.range 64).foldl
    (fun W i =>
      let t := i + 16
      W.setW t (S 1 (W.W (t - 3) ^^^ W.W (t - 8) ^^^ W.W (t - 14) ^^^ W.W (t - 16)))) W
  -- c. and d.
  let vars := (List.range 80).foldl (fun v t => round v t (W.W t)) sha.H
  -- e.
  { sha with vars := vars, H := List.zipWith (· + ·) sha.H vars, block := W, cursor := 0 }

/-- `Update`. -/
def update (sha : HashObject) : Bytes → Except Abort HashObject
  | [] => .ok sha
  | d :: data => do
      let sha ← sha.put d
      let sha := if 64 ≤ sha.cursor then sha.process else sha
      update { sha with l := sha.l + 8 } data

/-- `n` passes of `while (cursor < end) M[cursor++] = 0;`. -/
def putZeros : Nat → HashObject → Except Abort HashObject
  | 0, sha => .ok sha
  | n + 1, sha => do putZeros n (← sha.put 0)

/-- The end of `Pad`: the rest of the block, which is the bit count. -/
def putCount (sha : HashObject) : Except Abort HashObject := do
  let sha ← putZeros (60 - sha.cursor) sha
  let block := sha.block.setM 60 ((sha.l &&& 0xff000000) >>> 24).toUInt8
  let block := block.setM 61 ((sha.l &&& 0xff0000) >>> 16).toUInt8
  let block := block.setM 62 ((sha.l &&& 0xff00) >>> 8).toUInt8
  let block := block.setM 63 (sha.l &&& 0xff).toUInt8
  return { sha with block := block }

/-- `Pad`. -/
def pad (sha : HashObject) : Except Abort HashObject := do
  let sha ← sha.put 0x80
  if 64 - 8 < sha.cursor then
    -- pad out to next block
    let sha ← putZeros (64 - sha.cursor) sha
    sha.process.putCount
  else
    sha.putCount

/-- `Final`. -/
def final (sha : HashObject) : Except Abort HashObject := do
  let sha := (← sha.pad).process
  return { sha with H := sha.H.map swapends }

/-- `Digest`: the bytes of `H`. -/
def digest (sha : HashObject) : Bytes :=
  sha.H.flatMap leBytes

end HashObject

/-- `SHA1HashBytes`, with an object in memory that holds anything. -/
def SHA1HashBytes (memory : HashObject) (data : Bytes) : Except Abort Bytes := do
  let sha ← memory.init.update data
  return (← sha.final).digest

end SHA1

end WebSocketFiles
