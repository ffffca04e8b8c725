import NearSigner.Crypto.Sha2

/-!
# Ed25519 signatures

Deterministic signatures over the twisted Edwards curve
`-x² + y² = 1 + d·x²·y²` modulo `2^255 - 19`.  A secret is a seed of 32 octets,
which SHA-512 expands into the secret scalar and a string that makes the nonce
of every message unpredictable.  Points are kept in extended coordinates, in
which the addition law needs no inversion and has no exceptions.
-/

namespace NearSigner.Ed25519

/-- The order `2^255 - 19` of the field of coordinates. -/
def fieldOrder : Nat := (1 <<< 255) - 19

/-- The field has elements, so that numerals denote them. -/
instance : @NeZero Nat Zero.ofOfNat0 fieldOrder := ⟨Nat.ne_of_beq_eq_false rfl⟩

/-- Coordinates, with arithmetic modulo the order of the field. -/
abbrev Coordinate := Fin fieldOrder

/-- The order of the group that the base point generates. -/
def groupOrder : Nat := (1 <<< 252) + 27742317777372353535851937790883648493

/-- A coordinate raised to a power, by repeated squaring. -/
def power (base : Coordinate) (exponent : Nat) : Coordinate :=
  if exponent = 0 then
    1
  else
    let rest := power (base * base) (exponent / 2)
    if exponent % 2 = 1 then base * rest else rest
termination_by exponent

/-- The inverse of a coordinate other than zero. -/
def inverse (value : Coordinate) : Coordinate :=
  power value (fieldOrder - 2)

/-- Twice the coefficient `d = -121665 / 121666` of the curve. -/
def doubledCoefficient : Coordinate :=
  2 * (0 - 121665 * inverse 121666)

/-- A point of the curve in extended coordinates: `x / z`, `y / z`, and
`t / z` their product. -/
structure Point where
  x : Coordinate
  y : Coordinate
  z : Coordinate
  t : Coordinate

namespace Point

/-- The neutral element. -/
def neutral : Point where
  x := 0
  y := 1
  z := 1
  t := 0

/-- The generator of the group used for signatures. -/
def base : Point :=
  let x : Coordinate :=
    15112221349535400772501151409588531511454012693041857206046113283949847762202
  let y : Coordinate :=
    46316835694926478169428394003475163141307993866256225615783033603165251855960
  { x, y, z := 1, t := x * y }

/-- The sum of two points. -/
def add (first second : Point) : Point :=
  let a := (first.y - first.x) * (second.y - second.x)
  let b := (first.y + first.x) * (second.y + second.x)
  let c := first.t * doubledCoefficient * second.t
  let d := 2 * first.z * second.z
  let e := b - a
  let f := d - c
  let g := d + c
  let h := b + a
  { x := e * f, y := g * h, z := f * g, t := e * h }

/-- A multiple of a point, by repeated doubling. -/
def multiple (scalar : Nat) (point : Point) : Point :=
  if scalar = 0 then
    neutral
  else
    let rest := multiple (scalar / 2) (point.add point)
    if scalar % 2 = 1 then point.add rest else rest
termination_by scalar

/-- A point as 32 octets: its second coordinate, with the lowest bit of the
first one in the highest bit. -/
def encode (point : Point) : Bytes :=
  let inverseZ := inverse point.z
  let x := point.x * inverseZ
  let y := point.y * inverseZ
  Bytes.littleEndian 32 (y.val + ((x.val % 2) <<< 255))

@[simp]
theorem length_encode (point : Point) : point.encode.length = 32 := by
  simp [encode]

end Point

/-- The secret scalar held in the first half of an expanded seed: a multiple of
eight between `2^254` and `2^255`. -/
def clamp (half : Bytes) : Nat :=
  let value := Bytes.toNatLE half % (1 <<< 254)
  value - value % 8 + (1 <<< 254)

/-- The secret scalar of a seed. -/
def secretScalar (seed : Block 32) : Nat :=
  clamp ((Sha2.sha512 seed.toBytes).toBytes.take 32)

/-- The public key of a seed. -/
def publicKey (seed : Block 32) : Block 32 :=
  ⟨(Point.base.multiple (secretScalar seed)).encode.toArray, by simp⟩

/-- A digest of 64 octets as a scalar. -/
def scalarOf (message : Bytes) : Nat :=
  Bytes.toNatLE (Sha2.sha512 message).toBytes % groupOrder

/-- The signature of a message under a seed. -/
def sign (seed : Block 32) (message : Bytes) : Block 64 :=
  let nonce := scalarOf ((Sha2.sha512 seed.toBytes).toBytes.drop 32 ++ message)
  let commitment := (Point.base.multiple nonce).encode
  let challenge := scalarOf (commitment ++ (publicKey seed).toBytes ++ message)
  let response := (nonce + challenge * secretScalar seed) % groupOrder
  ⟨(commitment ++ Bytes.littleEndian 32 response).toArray, by simp [commitment]⟩

end NearSigner.Ed25519
