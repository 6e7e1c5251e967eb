import Loggregator.Lib.Bytes

/-!
# SHA-1

`crypto/sha1.Sum`.
-/

namespace Loggregator.Lib.Sha1

/-- The five words of the state. -/
structure Digest where
  a : UInt32
  b : UInt32
  c : UInt32
  d : UInt32
  e : UInt32
  deriving DecidableEq

def initial : Digest := ⟨0x67452301, 0xEFCDAB89, 0x98BADCFE, 0x10325476, 0xC3D2E1F0⟩

def rotl (x n : UInt32) : UInt32 := (x <<< n) ||| (x >>> (32 - n))

/-- A big-endian word. -/
def word : List UInt8 → UInt32
  | [] => 0
  | b :: bs => (word bs) ||| (b.toUInt32 <<< (8 * UInt32.ofNat bs.length))

/-- The words of a text whose length is a multiple of four. -/
def words : Nat → List UInt8 → List UInt32
  | 0, _ => []
  | n + 1, bs => word (bs.take 4) :: words n (bs.drop 4)

/-- The message schedule, last word first. -/
def schedule : Nat → List UInt32 → List UInt32
  | 0, ws => ws
  | n + 1, ws =>
    schedule n
      (rotl (ws.getD 2 0 ^^^ ws.getD 7 0 ^^^ ws.getD 13 0 ^^^ ws.getD 15 0) 1 :: ws)

/-- The function and the constant of a round. -/
def mix (t : Nat) (s : Digest) : UInt32 :=
  if t < 20 then ((s.b &&& s.c) ||| (~~~ s.b &&& s.d)) + 0x5A827999
  else if t < 40 then (s.b ^^^ s.c ^^^ s.d) + 0x6ED9EBA1
  else if t < 60 then ((s.b &&& s.c) ||| (s.b &&& s.d) ||| (s.c &&& s.d)) + 0x8F1BBCDC
  else (s.b ^^^ s.c ^^^ s.d) + 0xCA62C1D6

/-- One round for each word of the schedule, from round `t` on. -/
def rounds : Nat → Digest → List UInt32 → Digest
  | _, s, [] => s
  | t, s, w :: ws =>
    rounds (t + 1) ⟨rotl s.a 5 + mix t s + s.e + w, s.a, rotl s.b 30, s.c, s.d⟩ ws

/-- One block of 64 bytes. -/
def block (s : Digest) (bs : List UInt8) : Digest :=
  let r := rounds 0 s (schedule 64 (words 16 bs).reverse).reverse
  ⟨s.a + r.a, s.b + r.b, s.c + r.c, s.d + r.d, s.e + r.e⟩

def blocks : Nat → Digest → List UInt8 → Digest
  | 0, s, _ => s
  | n + 1, s, bs => blocks n (block s (bs.take 64)) (bs.drop 64)

/-- The number of blocks of a message with its padding. -/
def blockCount (n : Nat) : Nat := (n + 8) / 64 + 1

/-- The message with a one bit, zeros and its length in bits. -/
def pad (msg : List UInt8) : List UInt8 :=
  msg ++ [0x80] ++ List.replicate (64 * blockCount msg.length - msg.length - 9) 0 ++
    (putUint64 (UInt64.ofNat (8 * msg.length))).reverse

def wordBytes (w : UInt32) : List UInt8 :=
  [(w >>> 24).toUInt8, (w >>> 16).toUInt8, (w >>> 8).toUInt8, w.toUInt8]

/-- `sha1.Sum`. -/
def sum (msg : List UInt8) : List UInt8 :=
  let s := blocks (blockCount msg.length) initial (pad msg)
  wordBytes s.a ++ wordBytes s.b ++ wordBytes s.c ++ wordBytes s.d ++ wordBytes s.e

theorem sum_length (msg : List UInt8) : (sum msg).length = 20 := rfl

example : hexEncode (sum (str "abc")) = str "a9993e364706816aba3e25717850c26c9cd0d89d" := by
  decide +kernel

end Loggregator.Lib.Sha1
