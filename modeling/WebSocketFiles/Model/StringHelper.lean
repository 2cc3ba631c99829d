import WebSocketFiles.Library.ListSearch
import WebSocketFiles.Model.ByteBuffer

/-!
# `strHelper`

The string helpers of `string_helper.inl` and `string_helper.cpp`, on byte
strings.  `npos` is `none`; an expression that wraps around `npos` is written
out where it occurs.
-/

namespace WebSocketFiles

open ListSearch

/-- The bytes of a string literal. -/
def lit (s : String) : Bytes :=
  s.toList.map fun c => UInt8.ofNat c.toNat

namespace StrHelper

/-- `str.find(delim, pos)`. -/
def find (str delim : Bytes) (pos : Nat) : Option Nat :=
  if pos ≤ str.length then (indexOfSub delim (str.drop pos)).map (pos + ·) else none

/-- `str.substr(pos, n)`; the default of `n` is `npos`. -/
def substr (str : Bytes) (pos : Nat) (n : Option Nat := none) : Except Abort Bytes :=
  if str.length < pos then .error .outOfRange
  else
    match n with
    | none => .ok (str.drop pos)
    | some n => .ok ((str.drop pos).take n)

/-- Position of the last byte that satisfies `p`. -/
def findLast (str : Bytes) (p : UInt8 → Bool) : Option Nat :=
  (str.reverse.findIdx? p).map (str.length - 1 - ·)

/-- `count++`, on an `int`. -/
def increment (count : Int) : Except Abort Int :=
  if 2147483647 < count + 1 then .error .undefined else .ok (count + 1)

/-- The `for(;;)` loop of `strHelper::splitStr`. -/
def splitLoop (str delim : Bytes) (size : Nat) :
    Nat → Nat → Nat → List Bytes → Int → Except Abort (List Bytes × Int)
  | 0, _, _, _, _ => .error .outOfFuel
  | fuel + 1, prepos, pos, list, count =>
      match find str delim pos with
      | none => do
          if prepos < str.length then
            let piece ← substr str prepos
            let count ← increment count
            return (list ++ [piece], count)
          else
            return (list, count)
      | some pos => do
          let piece ← substr str prepos (some (pos - prepos))
          let count ← increment count
          splitLoop str delim size fuel (pos + size) (pos + size) (list ++ [piece]) count

/-- `strHelper::splitStr`: the pieces pushed to `list`, and their number.  `delim` is a C
string without its NUL, and its size an `unsigned int`.  A non-empty delimiter is
passed over at most `str.size()` times, or its size is 0 and the count overflows before. -/
def splitStr (list : List Bytes) (str : Bytes) (delim : Option Bytes) :
    Except Abort (List Bytes × Int) :=
  if str = [] then .ok (list, 0)
  else
    match delim with
    | none => .ok (list ++ [str], 1)
    | some delim =>
        splitLoop str delim (delim.length % 4294967296) (str.length + 1) 0 0 list 0

/-- `strHelper::trim`, which trims its argument in place. -/
def trim (str : Bytes) (thechar : UInt8 := 32) : Bytes :=
  if str = [] then str
  else
    let str :=
      match str.findIdx? (· != thechar) with
      | some pos => str.drop pos
      | none => str
    match findLast str (· == thechar) with
    | none => str
    | some _ =>
        match findLast str (· != thechar) with
        | some last => str.take (last + 1)
        | none => []   -- `npos + 1` is `0`

end StrHelper

end WebSocketFiles
