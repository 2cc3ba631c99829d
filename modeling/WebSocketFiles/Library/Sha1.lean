import WebSocketFiles.Library.Blocks
import WebSocketFiles.Library.FrameFormat

/-!
# SHA-1

The hash function of FIPS 180, as the standard writes it: functions on words, the
message schedule as a recurrence, the compression of one block, the padding of a
message to whole blocks, and the hash as what is left of the chaining value.

`sha1Counted` leaves the number that goes into the length field open; `sha1` is
the standard's choice.
-/

namespace Sha1

open FrameFormat Blocks

/-- A chaining value, or the five working variables. -/
@[ext]
structure Chain where
  a : UInt32
  b : UInt32
  c : UInt32
  d : UInt32
  e : UInt32
  deriving DecidableEq, Repr

/-! ## Functions on words -/

/-- Rotation to the left. -/
def rotl (n : Nat) (x : UInt32) : UInt32 :=
  ⟨x.toBitVec.rotateLeft n⟩

/-- Choice: a bit of `y` or of `z`. -/
def ch (x y z : UInt32) : UInt32 :=
  (x &&& y) ^^^ (~~~x &&& z)

def parity (x y z : UInt32) : UInt32 :=
  x ^^^ y ^^^ z

def maj (x y z : UInt32) : UInt32 :=
  (x &&& y) ^^^ (x &&& z) ^^^ (y &&& z)

/-- The function and the constant of a round. -/
def roundFunction (t : Nat) : UInt32 → UInt32 → UInt32 → UInt32 :=
  if t < 20 then ch else if t < 40 then parity else if t < 60 then maj else parity

def roundConstant (t : Nat) : UInt32 :=
  if t < 20 then 0x5a827999
  else if t < 40 then 0x6ed9eba1
  else if t < 60 then 0x8f1bbcdc
  else 0xca62c1d6

/-! ## One block -/

/-- Word `t` of a block. -/
def word (block : List UInt8) (t : Nat) : UInt32 :=
  UInt32.ofNat (ofBigEndian ((block.drop (4 * t)).take 4))

/-- The message schedule of a block. -/
def schedule (block : List UInt8) (t : Nat) : UInt32 :=
  if t < 16 then word block t
  else
    rotl 1 (schedule block (t - 3) ^^^ schedule block (t - 8) ^^^ schedule block (t - 14) ^^^
      schedule block (t - 16))
termination_by t

/-- One round. -/
def round (t : Nat) (w : UInt32) (v : Chain) : Chain where
  a := rotl 5 v.a + roundFunction t v.b v.c v.d + v.e + roundConstant t + w
  b := v.a
  c := rotl 30 v.b
  d := v.c
  e := v.d

def Chain.add (v w : Chain) : Chain :=
  ⟨v.a + w.a, v.b + w.b, v.c + w.c, v.d + w.d, v.e + w.e⟩

/-- The compression function. -/
def compress (h : Chain) (block : List UInt8) : Chain :=
  h.add ((List.range 80).foldl (fun v t => round t (schedule block t) v) h)

/-! ## Messages -/

/-- The initial chaining value. -/
def initial : Chain :=
  ⟨0x67452301, 0xefcdab89, 0x98badcfe, 0x10325476, 0xc3d2e1f0⟩

/-- How many zeros stand between the one bit and the length field. -/
def zeros (length : Nat) : Nat :=
  (119 - length % 64) % 64

/-- A message with its padding; `bits` goes into the length field. -/
def padded (bits : Nat) (message : List UInt8) : List UInt8 :=
  message ++ [0x80] ++ List.replicate (zeros message.length) 0 ++ bigEndian 8 bits

def Chain.words (v : Chain) : List UInt32 :=
  [v.a, v.b, v.c, v.d, v.e]

/-- The bytes of a chaining value. -/
def Chain.bytes (v : Chain) : List UInt8 :=
  v.words.flatMap fun w => bigEndian 4 w.toNat

/-- The hash with a given number in the length field. -/
def sha1Counted (bits : Nat) (message : List UInt8) : List UInt8 :=
  ((blocks 64 (padded bits message)).foldl compress initial).bytes

/-- SHA-1; the length field counts the bits of the message. -/
def sha1 (message : List UInt8) : List UInt8 :=
  sha1Counted (8 * message.length) message

/-! ## Lengths -/

/-- A padded message is a number of blocks. -/
theorem dvd_padded_length (bits : Nat) (message : List UInt8) :
    64 ∣ (padded bits message).length := by
  simp only [padded, zeros, List.length_append, List.length_singleton, List.length_replicate,
    bigEndian_length]
  omega

theorem Chain.bytes_length (v : Chain) : v.bytes.length = 20 := by
  simp [Chain.bytes, Chain.words]

/-- The hash of every message has 20 bytes. -/
theorem sha1_length (message : List UInt8) : (sha1 message).length = 20 :=
  Chain.bytes_length _

/-! ## The recurrence -/

theorem schedule_of_lt (block : List UInt8) {t : Nat} (hLt : t < 16) :
    schedule block t = word block t := by
  rw [schedule, if_pos hLt]

theorem schedule_add (block : List UInt8) (t : Nat) :
    schedule block (t + 16) =
      rotl 1 (schedule block (t + 16 - 3) ^^^ schedule block (t + 16 - 8) ^^^
        schedule block (t + 16 - 14) ^^^ schedule block (t + 16 - 16)) := by
  rw [schedule, if_neg (by omega)]

end Sha1
