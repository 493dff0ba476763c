import MSearchDB.Lib.Bytes

/-!
# SHA-256

The hash function of FIPS 180-4 over natural numbers. A row of 32-bit words is one
number with the first word in its low bits: eight words are the working variables
`a` to `h`, sixteen are the part of the message schedule that is still needed.
Written so, a round is a few operations on large numbers, which the kernel carries
out on their binary form; this is why `Nat.xor`, `Nat.mod` and the like stand here
by name.
-/

set_option autoImplicit false

namespace MSearchDB.Lib.Sha256

/-- The word `i` of a row. -/
def word (row i : Nat) : Nat := Nat.mod (Nat.shiftRight row (Nat.mul 32 i)) 4294967296

/-- The row of a list of words. -/
def row (words : List Nat) : Nat := words.foldr (fun w r => w + 4294967296 * r) 0

/-- Addition modulo `2 ^ 32`. -/
def add (x y : Nat) : Nat := Nat.mod (Nat.add x y) 4294967296

def xor3 (x y z : Nat) : Nat := Nat.xor (Nat.xor x y) z

def ch (x y z : Nat) : Nat := Nat.xor (Nat.land x y) (Nat.land (Nat.xor x 4294967295) z)

def maj (x y z : Nat) : Nat := xor3 (Nat.land x y) (Nat.land x z) (Nat.land y z)

/-- A word beside itself; its low 32 bits after a shift are the rotated word. -/
def twice (x : Nat) : Nat := Nat.mul x 4294967297

/-- The exclusive or of three rotations of a word that is given twice. -/
def bigSigma (i j k xx : Nat) : Nat :=
  Nat.mod (xor3 (Nat.shiftRight xx i) (Nat.shiftRight xx j) (Nat.shiftRight xx k)) 4294967296

/-- The same with a shift for the third rotation. -/
def smallSigma (i j k x xx : Nat) : Nat :=
  Nat.xor (Nat.mod (Nat.xor (Nat.shiftRight xx i) (Nat.shiftRight xx j)) 4294967296)
    (Nat.shiftRight x k)

def bigSigma0 (x : Nat) : Nat := bigSigma 2 13 22 (twice x)

def bigSigma1 (x : Nat) : Nat := bigSigma 6 11 25 (twice x)

def smallSigma0 (x : Nat) : Nat := smallSigma 7 18 3 x (twice x)

def smallSigma1 (x : Nat) : Nat := smallSigma 17 19 10 x (twice x)

/-- The round constants: the first 32 bits of the fractional parts of the cube
roots of the first 64 primes. -/
def roundConstants : List Nat :=
  [0x428a2f98, 0x71374491, 0xb5c0fbcf, 0xe9b5dba5, 0x3956c25b, 0x59f111f1, 0x923f82a4, 0xab1c5ed5,
    0xd807aa98, 0x12835b01, 0x243185be, 0x550c7dc3, 0x72be5d74, 0x80deb1fe, 0x9bdc06a7, 0xc19bf174,
    0xe49b69c1, 0xefbe4786, 0x0fc19dc6, 0x240ca1cc, 0x2de92c6f, 0x4a7484aa, 0x5cb0a9dc, 0x76f988da,
    0x983e5152, 0xa831c66d, 0xb00327c8, 0xbf597fc7, 0xc6e00bf3, 0xd5a79147, 0x06ca6351, 0x14292967,
    0x27b70a85, 0x2e1b2138, 0x4d2c6dfc, 0x53380d13, 0x650a7354, 0x766a0abb, 0x81c2c92e, 0x92722c85,
    0xa2bfe8a1, 0xa81a664b, 0xc24b8b70, 0xc76c51a3, 0xd192e819, 0xd6990624, 0xf40e3585, 0x106aa070,
    0x19a4c116, 0x1e376c08, 0x2748774c, 0x34b0bcb5, 0x391c0cb3, 0x4ed8aa4a, 0x5b9cca4f, 0x682e6ff3,
    0x748f82ee, 0x78a5636f, 0x84c87814, 0x8cc70208, 0x90befffa, 0xa4506ceb, 0xbef9a3f7, 0xc67178f2]

/-- The initial hash value. -/
def initialHash : Nat :=
  row [0x6a09e667, 0xbb67ae85, 0x3c6ef372, 0xa54ff53a, 0x510e527f, 0x9b05688c, 0x1f83d9ab, 0x5be0cd19]

/-- `T1` of a round with the constant `k` and the schedule word `w`. -/
def temp1 (s k w : Nat) : Nat :=
  Nat.add (Nat.add (word s 7) (bigSigma1 (word s 4)))
    (Nat.add (ch (word s 4) (word s 5) (word s 6)) (Nat.add k w))

/-- `T2` of a round. -/
def temp2 (s : Nat) : Nat :=
  Nat.add (bigSigma0 (word s 0)) (maj (word s 0) (word s 1) (word s 2))

/-- Three words of a row, the first of them at its low end. -/
def threeWords (row : Nat) : Nat := Nat.mod row 79228162514264337593543950336

/-- The working variables move one place on: `t + T2` and the old `a`, `b`, `c`,
then `d + t` and the old `e`, `f`, `g`. -/
def update (s t : Nat) : Nat :=
  Nat.add (Nat.add (add t (temp2 s)) (Nat.shiftLeft (threeWords s) 32))
    (Nat.add (Nat.shiftLeft (add (word s 3) t) 128)
      (Nat.shiftLeft (threeWords (Nat.shiftRight s 128)) 160))

/-- The schedule less its first word, with the word that follows the other
fifteen. -/
def advance (m : Nat) : Nat :=
  Nat.add (Nat.shiftRight m 32)
    (Nat.shiftLeft
      (add (Nat.add (smallSigma1 (word m 14)) (word m 9)) (Nat.add (smallSigma0 (word m 1)) (word m 0)))
      480)

/-- One round for each constant. -/
def rounds : List Nat → Nat → Nat → Nat
  | [], _, s => s
  | k :: ks, m, s => rounds ks (advance m) (update s (temp1 s k (word m 0)))

/-- The hash value after one more block of the message. -/
def compress (h m : Nat) : Nat :=
  let s := rounds roundConstants m h
  row ((List.range 8).map fun i => add (word h i) (word s i))

/-- The message padded to whole blocks of 64 bytes. -/
def pad (bs : Bytes) : Bytes :=
  bs ++ 0x80 :: List.replicate ((119 - bs.length % 64) % 64) 0 ++ beBytes 8 (8 * bs.length)

/-- The big-endian words of a byte string. -/
def beWords : Bytes → List Nat
  | b₀ :: b₁ :: b₂ :: b₃ :: bs => ofBe [b₀, b₁, b₂, b₃] :: beWords bs
  | _ => []

/-- The hash value of the first `n` blocks of a message given as words. -/
def hashBlocks : Nat → List Nat → Nat → Nat
  | 0, _, h => h
  | n + 1, ws, h => hashBlocks n (ws.drop 16) (compress h (row (ws.take 16)))

/-- The words of the digest, as a row. -/
def hash (bs : Bytes) : Nat := hashBlocks ((pad bs).length / 64) (beWords (pad bs)) initialHash

/-- The digest of a message. -/
def digest (bs : Bytes) : Vector UInt8 32 :=
  ⟨((List.range 8).flatMap fun i => beBytes 4 (word (hash bs) i)).toArray, by simp⟩

/-- The message `abc` of the standard's appendix. -/
example : (List.range 8).map (word (hash [0x61, 0x62, 0x63])) =
    [0xba7816bf, 0x8f01cfea, 0x414140de, 0x5dae2223, 0xb00361a3, 0x96177a9c, 0xb410ff61, 0xf20015ad] := by
  decide +kernel

end MSearchDB.Lib.Sha256
