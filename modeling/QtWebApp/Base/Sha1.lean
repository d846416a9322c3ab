import QtWebApp.Base.BigEndian

/-!
# QtWebApp.Base.Sha1

The hash function SHA-1.

It is executable, so that a handshake can be computed from beginning to end. The proofs ask for
nothing but that the hash of a text is not empty.
-/

namespace QtWebApp

namespace Sha1

/-- A word, rotated to the left. -/
def rotate (n x : UInt32) : UInt32 := (x <<< n) ||| (x >>> (32 - n))

/-- The message with its padding: whole blocks of 64 bytes. -/
def pad (message : Bytes) : Bytes :=
  message ++ 0x80 :: List.replicate ((119 - message.length % 64) % 64) 0 ++ toBigEndian 8
    (8 * message.length)

/-- Cut into pieces of `n + 1` bytes. -/
def pieces (n : Nat) : Nat → Bytes → List Bytes
  | 0, _ => []
  | count + 1, b => b.take (n + 1) :: pieces n count (b.drop (n + 1))

/-- The schedule of a block: its sixteen words and the ones made of them, the last one first. -/
def extend : Nat → List UInt32 → List UInt32
  | 0, words => words
  | count + 1, words =>
      extend count
        (rotate 1 (words.getD 2 0 ^^^ words.getD 7 0 ^^^ words.getD 13 0 ^^^ words.getD 15 0) ::
          words)

/-- The five words of the state. -/
structure State where
  a : UInt32
  b : UInt32
  c : UInt32
  d : UInt32
  e : UInt32

/-- The function and the constant of a round. -/
def mix (s : State) (round : Nat) : UInt32 :=
  if round < 20 then ((s.b &&& s.c) ||| (~~~ s.b &&& s.d)) + 0x5A827999
  else if round < 40 then (s.b ^^^ s.c ^^^ s.d) + 0x6ED9EBA1
  else if round < 60 then ((s.b &&& s.c) ||| (s.b &&& s.d) ||| (s.c &&& s.d)) + 0x8F1BBCDC
  else (s.b ^^^ s.c ^^^ s.d) + 0xCA62C1D6

/-- The rounds from one on, for the words that are left. -/
def rounds : Nat → List UInt32 → State → State
  | _, [], s => s
  | round, word :: words, s =>
      rounds (round + 1) words
        ⟨rotate 5 s.a + mix s round + s.e + word, s.a, rotate 30 s.b, s.c, s.d⟩

/-- One block. -/
def block (s : State) (b : Bytes) : State :=
  let words := (pieces 3 16 b).map fun word => UInt32.ofNat (fromBigEndian word)
  let t := rounds 0 (extend 64 words.reverse).reverse s
  ⟨s.a + t.a, s.b + t.b, s.c + t.c, s.d + t.d, s.e + t.e⟩

/-- `QCryptographicHash::hash`, with the algorithm `Sha1`. -/
def hash (message : Bytes) : Bytes :=
  let padded := pad message
  let s := (pieces 63 (padded.length / 64) padded).foldl block
    ⟨0x67452301, 0xEFCDAB89, 0x98BADCFE, 0x10325476, 0xC3D2E1F0⟩
  [s.a, s.b, s.c, s.d, s.e].flatMap fun word => toBigEndian 4 word.toNat

theorem hash_ne_nil (message : Bytes) : hash message ≠ [] := by
  refine List.ne_nil_of_length_pos ?_
  rw [hash, List.length_flatMap]
  simp [length_toBigEndian]

end Sha1

end QtWebApp
