import NearSigner.Bytes.Words

/-!
# The SHA-2 hash functions

SHA-256 and SHA-512 are one algorithm over words of 32 and of 64 bits: the
message is padded to whole blocks of sixteen words, and every block is mixed
into a state of eight words by a round for each constant of the function.  The
message schedule is kept as a window of sixteen words that moves by one word a
round.  The two functions differ only in the parameters collected here in
`Parameters`.
-/

namespace NearSigner.Sha2

/-- The eight words that the rounds transform. -/
structure State (w : Nat) where
  a : BitVec w
  b : BitVec w
  c : BitVec w
  d : BitVec w
  e : BitVec w
  f : BitVec w
  g : BitVec w
  h : BitVec w

/-- Wordwise sum of two states. -/
def State.add {w : Nat} (first second : State w) : State w where
  a := first.a + second.a
  b := first.b + second.b
  c := first.c + second.c
  d := first.d + second.d
  e := first.e + second.e
  f := first.f + second.f
  g := first.g + second.g
  h := first.h + second.h

/-- The words of a state in order. -/
def State.words {w : Nat} (state : State w) : List (BitVec w) :=
  [state.a, state.b, state.c, state.d, state.e, state.f, state.g, state.h]

/-- What distinguishes one function of the family from another.  The four
mixing functions are given by the amounts of their rotations; in the two small
ones the third amount is that of a shift. -/
structure Parameters (w : Nat) where
  constants : List (BitVec w)
  start : State w
  bigSigma0 : Nat × Nat × Nat
  bigSigma1 : Nat × Nat × Nat
  smallSigma0 : Nat × Nat × Nat
  smallSigma1 : Nat × Nat × Nat

/-- The sum modulo two of three rotations of a word. -/
def rotations {w : Nat} (amounts : Nat × Nat × Nat) (word : BitVec w) : BitVec w :=
  word.rotateRight amounts.1 ^^^ word.rotateRight amounts.2.1 ^^^
    word.rotateRight amounts.2.2

/-- The sum modulo two of two rotations and a shift of a word. -/
def rotationsAndShift {w : Nat} (amounts : Nat × Nat × Nat) (word : BitVec w) :
    BitVec w :=
  word.rotateRight amounts.1 ^^^ word.rotateRight amounts.2.1 ^^^
    (word >>> amounts.2.2)

/-- Each bit of the first word chooses between those of the other two. -/
def choice {w : Nat} (x y z : BitVec w) : BitVec w :=
  (x &&& y) ^^^ (~~~x &&& z)

/-- Each bit is the one that at least two of the words have. -/
def majority {w : Nat} (x y z : BitVec w) : BitVec w :=
  (x &&& y) ^^^ (x &&& z) ^^^ (y &&& z)

/-- Sixteen consecutive words of the message schedule. -/
abbrev Window (w : Nat) := Vector (BitVec w) 16

/-- The next sixteen words of the schedule. -/
def Window.advance {w : Nat} (parameters : Parameters w) (window : Window w) :
    Window w :=
  let next := rotationsAndShift parameters.smallSigma1 window[14] + window[9] +
    rotationsAndShift parameters.smallSigma0 window[1] + window[0]
  Vector.ofFn fun i => if inside : i.val + 1 < 16 then window[i.val + 1] else next

/-- One round, which uses the oldest word of the window. -/
def round {w : Nat} (parameters : Parameters w) :
    State w × Window w → BitVec w → State w × Window w
  | (state, window), constant =>
      let first := state.h + rotations parameters.bigSigma1 state.e +
        choice state.e state.f state.g + constant + window[0]
      let second := rotations parameters.bigSigma0 state.a +
        majority state.a state.b state.c
      ({ a := first + second, b := state.a, c := state.b, d := state.c,
         e := state.d + first, f := state.e, g := state.f, h := state.g },
        window.advance parameters)

/-- The sixteen words of a block. -/
def blockWords {w : Nat} (block : Bytes) : Window w :=
  Vector.ofFn fun i =>
    BitVec.ofNat w (Bytes.toNatBE ((block.drop (i.val * (w / 8))).take (w / 8)))

/-- Mix one block into the state. -/
def compress {w : Nat} (parameters : Parameters w) (state : State w) (block : Bytes) :
    State w :=
  state.add (parameters.constants.foldl (round parameters) (state, blockWords block)).1

/-- The message, a single one bit, zero bits up to the length field of the last
block, and the number of bits of the message in two words. -/
def pad (w : Nat) (message : Bytes) : Bytes :=
  let field := w / 4
  let used := (message.length + 1 + field) % (2 * w)
  message ++ 0x80 :: List.replicate ((2 * w - used) % (2 * w)) 0 ++
    Bytes.bigEndian field (8 * message.length)

/-- The first `count` pieces of `size` octets. -/
def pieces (size : Nat) : Nat → Bytes → List Bytes
  | 0, _ => []
  | count + 1, bytes => bytes.take size :: pieces size count (bytes.drop size)

/-- The digest of a message, as octets. -/
def digest {w : Nat} (parameters : Parameters w) (message : Bytes) : Bytes :=
  let padded := pad w message
  let blocks := pieces (2 * w) (padded.length / (2 * w)) padded
  (blocks.foldl (compress parameters) parameters.start).words.flatMap fun word =>
    Bytes.bigEndian (w / 8) word.toNat

theorem length_digest {w : Nat} (parameters : Parameters w) (message : Bytes) :
    (digest parameters message).length = 8 * (w / 8) := by
  simp [digest, State.words]
  omega

/-! ## The two functions -/

/-- SHA-256. -/
def sha256Parameters : Parameters 32 where
  start :=
    { a := 0x6a09e667, b := 0xbb67ae85, c := 0x3c6ef372, d := 0xa54ff53a,
      e := 0x510e527f, f := 0x9b05688c, g := 0x1f83d9ab, h := 0x5be0cd19 }
  bigSigma0 := (2, 13, 22)
  bigSigma1 := (6, 11, 25)
  smallSigma0 := (7, 18, 3)
  smallSigma1 := (17, 19, 10)
  constants :=
    [0x428a2f98, 0x71374491, 0xb5c0fbcf, 0xe9b5dba5, 0x3956c25b, 0x59f111f1,
      0x923f82a4, 0xab1c5ed5, 0xd807aa98, 0x12835b01, 0x243185be, 0x550c7dc3,
      0x72be5d74, 0x80deb1fe, 0x9bdc06a7, 0xc19bf174, 0xe49b69c1, 0xefbe4786,
      0x0fc19dc6, 0x240ca1cc, 0x2de92c6f, 0x4a7484aa, 0x5cb0a9dc, 0x76f988da,
      0x983e5152, 0xa831c66d, 0xb00327c8, 0xbf597fc7, 0xc6e00bf3, 0xd5a79147,
      0x06ca6351, 0x14292967, 0x27b70a85, 0x2e1b2138, 0x4d2c6dfc, 0x53380d13,
      0x650a7354, 0x766a0abb, 0x81c2c92e, 0x92722c85, 0xa2bfe8a1, 0xa81a664b,
      0xc24b8b70, 0xc76c51a3, 0xd192e819, 0xd6990624, 0xf40e3585, 0x106aa070,
      0x19a4c116, 0x1e376c08, 0x2748774c, 0x34b0bcb5, 0x391c0cb3, 0x4ed8aa4a,
      0x5b9cca4f, 0x682e6ff3, 0x748f82ee, 0x78a5636f, 0x84c87814, 0x8cc70208,
      0x90befffa, 0xa4506ceb, 0xbef9a3f7, 0xc67178f2]

/-- SHA-512. -/
def sha512Parameters : Parameters 64 where
  start :=
    { a := 0x6a09e667f3bcc908, b := 0xbb67ae8584caa73b, c := 0x3c6ef372fe94f82b,
      d := 0xa54ff53a5f1d36f1, e := 0x510e527fade682d1, f := 0x9b05688c2b3e6c1f,
      g := 0x1f83d9abfb41bd6b, h := 0x5be0cd19137e2179 }
  bigSigma0 := (28, 34, 39)
  bigSigma1 := (14, 18, 41)
  smallSigma0 := (1, 8, 7)
  smallSigma1 := (19, 61, 6)
  constants :=
    [0x428a2f98d728ae22, 0x7137449123ef65cd, 0xb5c0fbcfec4d3b2f, 0xe9b5dba58189dbbc,
      0x3956c25bf348b538, 0x59f111f1b605d019, 0x923f82a4af194f9b, 0xab1c5ed5da6d8118,
      0xd807aa98a3030242, 0x12835b0145706fbe, 0x243185be4ee4b28c, 0x550c7dc3d5ffb4e2,
      0x72be5d74f27b896f, 0x80deb1fe3b1696b1, 0x9bdc06a725c71235, 0xc19bf174cf692694,
      0xe49b69c19ef14ad2, 0xefbe4786384f25e3, 0x0fc19dc68b8cd5b5, 0x240ca1cc77ac9c65,
      0x2de92c6f592b0275, 0x4a7484aa6ea6e483, 0x5cb0a9dcbd41fbd4, 0x76f988da831153b5,
      0x983e5152ee66dfab, 0xa831c66d2db43210, 0xb00327c898fb213f, 0xbf597fc7beef0ee4,
      0xc6e00bf33da88fc2, 0xd5a79147930aa725, 0x06ca6351e003826f, 0x142929670a0e6e70,
      0x27b70a8546d22ffc, 0x2e1b21385c26c926, 0x4d2c6dfc5ac42aed, 0x53380d139d95b3df,
      0x650a73548baf63de, 0x766a0abb3c77b2a8, 0x81c2c92e47edaee6, 0x92722c851482353b,
      0xa2bfe8a14cf10364, 0xa81a664bbc423001, 0xc24b8b70d0f89791, 0xc76c51a30654be30,
      0xd192e819d6ef5218, 0xd69906245565a910, 0xf40e35855771202a, 0x106aa07032bbd1b8,
      0x19a4c116b8d2d0c8, 0x1e376c085141ab53, 0x2748774cdf8eeb99, 0x34b0bcb5e19b48a8,
      0x391c0cb3c5c95a63, 0x4ed8aa4ae3418acb, 0x5b9cca4f7763e373, 0x682e6ff3d6b2b8a3,
      0x748f82ee5defb2fc, 0x78a5636f43172f60, 0x84c87814a1f0ab72, 0x8cc702081a6439ec,
      0x90befffa23631e28, 0xa4506cebde82bde9, 0xbef9a3f7b2c67915, 0xc67178f2e372532b,
      0xca273eceea26619c, 0xd186b8c721c0c207, 0xeada7dd6cde0eb1e, 0xf57d4f7fee6ed178,
      0x06f067aa72176fba, 0x0a637dc5a2c898a6, 0x113f9804bef90dae, 0x1b710b35131c471b,
      0x28db77f523047d84, 0x32caab7b40c72493, 0x3c9ebe0a15c9bebc, 0x431d67c49c100d4c,
      0x4cc5d4becb3e42b6, 0x597f299cfc657e2a, 0x5fcb6fab3ad6faec, 0x6c44198c4a475817]

/-- The SHA-256 digest of a message. -/
def sha256 (message : Bytes) : Block 32 :=
  ⟨(digest sha256Parameters message).toArray, by simp [length_digest]⟩

/-- The SHA-512 digest of a message. -/
def sha512 (message : Bytes) : Block 64 :=
  ⟨(digest sha512Parameters message).toArray, by simp [length_digest]⟩

end NearSigner.Sha2
