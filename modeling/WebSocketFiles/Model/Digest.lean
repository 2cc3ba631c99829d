import WebSocketFiles.Model.StringHelper

/-!
# SHA-1 and Base64

The two functions behind the `Sec-WebSocket-Accept` header:
`SHA1::SHA1HashString` of `sha1_portable.cpp` and `Base64encode` of
`base64.cpp`.  The byte swaps of the hash are written as the big-endian reads
and writes they amount to on a little-endian machine.
-/

namespace WebSocketFiles

namespace SHA1

/-- The round function. -/
def f (t : Nat) (B C D : UInt32) : UInt32 :=
  if t < 20 then (B &&& C) ||| (~~~B &&& D)
  else if t < 40 then B ^^^ C ^^^ D
  else if t < 60 then (B &&& C) ||| (B &&& D) ||| (C &&& D)
  else B ^^^ C ^^^ D

/-- Rotation to the left. -/
def S (n X : UInt32) : UInt32 :=
  (X <<< n) ||| (X >>> (32 - n))

/-- The round constant. -/
def K (t : Nat) : UInt32 :=
  if t < 20 then 0x5a827999
  else if t < 40 then 0x6ed9eba1
  else if t < 60 then 0x8f1bbcdc
  else 0xca62c1d6

/-- `class SecureHashAlgorithm`: the chaining value, the filled part of the
block (`cursor` is its length) and the bit count. -/
structure SecureHashAlgorithm where
  H : List UInt32
  M : Bytes
  l : UInt32

def SecureHashAlgorithm.init : SecureHashAlgorithm :=
  ⟨[0x67452301, 0xefcdab89, 0x98badcfe, 0x10325476, 0xc3d2e1f0], [], 0⟩

/-- The 32-bit words of a block, most significant byte first. -/
def words : Bytes → List UInt32
  | a :: b :: c :: d :: rest =>
      ((a.toUInt32 <<< 24) ||| (b.toUInt32 <<< 16) ||| (c.toUInt32 <<< 8) ||| d.toUInt32) ::
        words rest
  | _ => []

/-- Steps a and b of `Process`: the message schedule `W`. -/
def schedule (M : Bytes) : List UInt32 :=
  (List.range 64).foldl
    (fun W i =>
      let t := i + 16
      W ++ [S 1 (W.getD (t - 3) 0 ^^^ W.getD (t - 8) 0 ^^^ W.getD (t - 14) 0 ^^^
        W.getD (t - 16) 0)])
    (words M)

/-- One round of step d, on the list `[A, B, C, D, E]`. -/
def round (v : List UInt32) (t : Nat) (w : UInt32) : List UInt32 :=
  match v with
  | [A, B, C, D, E] => [S 5 A + f t B C D + E + w + K t, A, S 30 B, C, D]
  | v => v

/-- `SecureHashAlgorithm::Process`. -/
def process (sha : SecureHashAlgorithm) : SecureHashAlgorithm :=
  let v := (schedule sha.M).zipIdx.foldl (fun v (w, t) => round v t w) sha.H
  { sha with H := List.zipWith (· + ·) sha.H v, M := [] }

/-- `SecureHashAlgorithm::Update`. -/
def update (sha : SecureHashAlgorithm) : Bytes → SecureHashAlgorithm
  | [] => sha
  | d :: data =>
      let sha := { sha with M := sha.M ++ [d] }
      let sha := if 64 ≤ sha.M.length then process sha else sha
      update { sha with l := sha.l + 8 } data

/-- `SecureHashAlgorithm::Pad`. -/
def pad (sha : SecureHashAlgorithm) : SecureHashAlgorithm :=
  let sha := { sha with M := sha.M ++ [0x80] }
  let sha :=
    if 64 - 8 < sha.M.length then
      process { sha with M := sha.M ++ List.replicate (64 - sha.M.length) (0 : UInt8) }
    else sha
  { sha with
    M := sha.M ++ List.replicate (60 - sha.M.length) (0 : UInt8) ++
      [(sha.l >>> 24).toUInt8, (sha.l >>> 16).toUInt8, (sha.l >>> 8).toUInt8, sha.l.toUInt8] }

/-- `SHA1::SHA1HashString`. -/
def SHA1HashString (str : Bytes) : Bytes :=
  (process (pad (update .init str))).H.flatMap fun (h : UInt32) =>
    [(h >>> 24).toUInt8, (h >>> 16).toUInt8, (h >>> 8).toUInt8, h.toUInt8]

theorem process_H_length_le (sha : SecureHashAlgorithm) :
    (process sha).H.length ≤ sha.H.length := by
  simp [process]

theorem update_H_length_le (data : Bytes) :
    ∀ sha : SecureHashAlgorithm, (update sha data).H.length ≤ sha.H.length := by
  induction data with
  | nil =>
      intro sha
      exact le_refl _
  | cons d data ih =>
      intro sha
      refine (ih _).trans ?_
      show (if 64 ≤ (sha.M ++ [d]).length then
        process { sha with M := sha.M ++ [d] } else { sha with M := sha.M ++ [d] }).H.length ≤ _
      split
      · exact process_H_length_le _
      · exact le_refl _

theorem pad_H_length_le (sha : SecureHashAlgorithm) : (pad sha).H.length ≤ sha.H.length := by
  show (if 64 - 8 < (sha.M ++ [0x80]).length then
    process { sha with M := sha.M ++ [0x80] ++ List.replicate (64 - (sha.M ++ [0x80]).length) 0 }
    else { sha with M := sha.M ++ [0x80] }).H.length ≤ _
  split
  · exact process_H_length_le _
  · exact le_refl _

/-- A digest has at most 20 bytes. -/
theorem SHA1HashString_length_le (str : Bytes) : (SHA1HashString str).length ≤ 20 := by
  have hWords : (process (pad (update .init str))).H.length ≤ 5 :=
    (process_H_length_le _).trans ((pad_H_length_le _).trans (update_H_length_le str .init))
  unfold SHA1HashString
  simp only [List.length_flatMap, List.length_cons, List.length_nil, List.map_const',
    List.sum_replicate, smul_eq_mul]
  omega

end SHA1

/-- `basis_64`. -/
def basis64 : Bytes :=
  lit "ABCDEFGHIJKLMNOPQRSTUVWXYZabcdefghijklmnopqrstuvwxyz0123456789+/"

/-- One character of the Base64 alphabet. -/
def sixBits (n : UInt8) : UInt8 :=
  basis64.getD n.toNat 0

/-- `Base64encode`, without the terminating NUL. -/
def base64encode : Bytes → Bytes
  | a :: b :: c :: rest =>
      sixBits ((a >>> 2) &&& 0x3F) ::
      sixBits (((a &&& 0x3) <<< 4) ||| ((b &&& 0xF0) >>> 4)) ::
      sixBits (((b &&& 0xF) <<< 2) ||| ((c &&& 0xC0) >>> 6)) ::
      sixBits (c &&& 0x3F) :: base64encode rest
  | [a, b] =>
      [sixBits ((a >>> 2) &&& 0x3F), sixBits (((a &&& 0x3) <<< 4) ||| ((b &&& 0xF0) >>> 4)),
        sixBits ((b &&& 0xF) <<< 2), 61]
  | [a] => [sixBits ((a >>> 2) &&& 0x3F), sixBits ((a &&& 0x3) <<< 4), 61, 61]
  | [] => []

theorem base64encode_length_le (bs : Bytes) : (base64encode bs).length ≤ 4 * bs.length := by
  fun_induction base64encode bs with
  | case1 a b c rest ih =>
      simp only [List.length_cons]
      omega
  | case2 a b => simp
  | case3 a => simp
  | case4 => simp

end WebSocketFiles
