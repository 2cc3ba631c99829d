import WebSocketFiles.Model.Digest

/-!
# Base64 decoding

The other functions of `base64.cpp`: the decoder with its table, and the two that
size a buffer.  The counts are `int`s; `Base64encode` itself stands beside the hash.
-/

namespace WebSocketFiles

open MachineInt

/-- `pr2six`. -/
def pr2sixTable : Bytes := [
  64, 64, 64, 64, 64, 64, 64, 64, 64, 64, 64, 64, 64, 64, 64, 64,
  64, 64, 64, 64, 64, 64, 64, 64, 64, 64, 64, 64, 64, 64, 64, 64,
  64, 64, 64, 64, 64, 64, 64, 64, 64, 64, 64, 62, 64, 64, 64, 63,
  52, 53, 54, 55, 56, 57, 58, 59, 60, 61, 64, 64, 64, 64, 64, 64,
  64,  0,  1,  2,  3,  4,  5,  6,  7,  8,  9, 10, 11, 12, 13, 14,
  15, 16, 17, 18, 19, 20, 21, 22, 23, 24, 25, 64, 64, 64, 64, 64,
  64, 26, 27, 28, 29, 30, 31, 32, 33, 34, 35, 36, 37, 38, 39, 40,
  41, 42, 43, 44, 45, 46, 47, 48, 49, 50, 51, 64, 64, 64, 64, 64,
  64, 64, 64, 64, 64, 64, 64, 64, 64, 64, 64, 64, 64, 64, 64, 64,
  64, 64, 64, 64, 64, 64, 64, 64, 64, 64, 64, 64, 64, 64, 64, 64,
  64, 64, 64, 64, 64, 64, 64, 64, 64, 64, 64, 64, 64, 64, 64, 64,
  64, 64, 64, 64, 64, 64, 64, 64, 64, 64, 64, 64, 64, 64, 64, 64,
  64, 64, 64, 64, 64, 64, 64, 64, 64, 64, 64, 64, 64, 64, 64, 64,
  64, 64, 64, 64, 64, 64, 64, 64, 64, 64, 64, 64, 64, 64, 64, 64,
  64, 64, 64, 64, 64, 64, 64, 64, 64, 64, 64, 64, 64, 64, 64, 64,
  64, 64, 64, 64, 64, 64, 64, 64, 64, 64, 64, 64, 64, 64, 64, 64]

/-- `pr2six[c]`; the table has an entry for every byte. -/
def pr2six (c : UInt8) : UInt8 :=
  pr2sixTable.getD c.toNat 64

/-- The scan in front of both functions, `while (pr2six[*(bufin++)] <= 63);`, and
the count `nprbytes` it leaves. -/
def scanCoded (bufcoded : Bytes) : Except Abort Int :=
  match bufcoded.findIdx? fun c => !(pr2six c ≤ 63) with
  | none => .error .undefined
  | some n => .ok (toInt32 n)

/-- `((nprbytes + 3) / 4) * 3`. -/
def groupBytes (nprbytes : Int) : Except Abort Int :=
  if 2147483647 < nprbytes + 3 then .error .undefined
  else .ok ((nprbytes + 3).tdiv 4 * 3)

/-- `Base64decode_len`. -/
def base64decodeLen (bufcoded : Bytes) : Except Abort Int := do
  let nprbytes ← scanCoded bufcoded
  let nbytesdecoded ← groupBytes nprbytes
  return nbytesdecoded + 1

/-- `pr2six[bufin[i]]`. -/
def pr2sixAt (bufin : Bytes) (i : Nat) : Except Abort UInt8 :=
  match bufin[i]? with
  | none => .error .undefined
  | some c => .ok (pr2six c)

/-- The first byte of a group. -/
def groupFst (bufin : Bytes) : Except Abort UInt8 := do
  return ((← pr2sixAt bufin 0) <<< 2) ||| ((← pr2sixAt bufin 1) >>> 4)

/-- The second byte of a group. -/
def groupSnd (bufin : Bytes) : Except Abort UInt8 := do
  return ((← pr2sixAt bufin 1) <<< 4) ||| ((← pr2sixAt bufin 2) >>> 2)

/-- The third byte of a group. -/
def groupTrd (bufin : Bytes) : Except Abort UInt8 := do
  return ((← pr2sixAt bufin 2) <<< 6) ||| (← pr2sixAt bufin 3)

/-- The `while` loop of `Base64decode`, which leaves at most four symbols: what is
left of the input and of its count, and the output so far. -/
def decodeLoop : Nat → Bytes → Int → Bytes → Except Abort (Bytes × Int × Bytes)
  | 0, _, _, _ => .error .outOfFuel
  | fuel + 1, bufin, nprbytes, bufout =>
      if nprbytes > 4 then do
        let bufout := bufout ++ [← groupFst bufin, ← groupSnd bufin, ← groupTrd bufin]
        decodeLoop fuel (bufin.drop 4) (nprbytes - 4) bufout
      else .ok (bufin, nprbytes, bufout)

/-- The three conditional bytes behind the loop. -/
def decodeTail (bufin : Bytes) (nprbytes : Int) (bufout : Bytes) : Except Abort Bytes := do
  -- Note: (nprbytes == 1) would be an error, so just ingore that case
  if nprbytes > 3 then
    return bufout ++ [← groupFst bufin, ← groupSnd bufin, ← groupTrd bufin]
  else if nprbytes > 2 then
    return bufout ++ [← groupFst bufin, ← groupSnd bufin]
  else if nprbytes > 1 then
    return bufout ++ [← groupFst bufin]
  else
    return bufout

/-- `Base64decode`: the number of bytes decoded, and what was written to
`bufplain`. -/
def base64decode (bufcoded : Bytes) : Except Abort (Int × Bytes) := do
  let nprbytes ← scanCoded bufcoded
  let nbytesdecoded ← groupBytes nprbytes
  let (bufin, nprbytes, bufout) ← decodeLoop (bufcoded.length + 1) bufcoded nprbytes []
  let bufout ← decodeTail bufin nprbytes bufout
  return (nbytesdecoded - (4 - nprbytes) % 4, bufout ++ [0])

/-- `Base64encode_len`, `((len + 2) / 3 * 4) + 1`; where an earlier sum or product is no
`int`, the whole is none either. -/
def base64encodeLen (len : Int) : Except Abort Int :=
  if 2147483647 < (len + 2).tdiv 3 * 4 + 1 then .error .undefined
  else .ok ((len + 2).tdiv 3 * 4 + 1)

end WebSocketFiles
