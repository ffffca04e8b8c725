import NearSigner.Bytes.Basic

/-!
# Words as byte sequences

A natural number is written as a fixed number of octets, least significant
first or most significant first, and read back.  The two orders are reverses of
one another.  Every sequence is the written form of the number it denotes, so
reading is injective on sequences of one length.
-/

namespace NearSigner.Bytes

/-- The `width` low-order octets of `value`, least significant first. -/
def littleEndian : Nat → Nat → Bytes
  | 0, _ => []
  | width + 1, value => UInt8.ofNat value :: littleEndian width (value / 256)

/-- The number whose octets are given least significant first. -/
def toNatLE : Bytes → Nat
  | [] => 0
  | octet :: rest => octet.toNat + 256 * toNatLE rest

/-- The `width` low-order octets of `value`, most significant first. -/
def bigEndian (width value : Nat) : Bytes :=
  (littleEndian width value).reverse

/-- The number whose octets are given most significant first. -/
def toNatBE (bytes : Bytes) : Nat :=
  toNatLE bytes.reverse

@[simp]
theorem length_littleEndian (width value : Nat) :
    (littleEndian width value).length = width := by
  induction width generalizing value with
  | zero => rfl
  | succ width ih => simp [littleEndian, ih]

@[simp]
theorem length_bigEndian (width value : Nat) :
    (bigEndian width value).length = width := by
  simp [bigEndian]

/-- Every sequence is the written form of the number it denotes. -/
theorem littleEndian_toNatLE (bytes : Bytes) :
    littleEndian bytes.length (toNatLE bytes) = bytes := by
  induction bytes with
  | nil => rfl
  | cons octet rest ih =>
      have octetLt := octet.toNat_lt
      have quotient : (octet.toNat + 256 * toNatLE rest) / 256 = toNatLE rest := by
        omega
      have head : UInt8.ofNat (octet.toNat + 256 * toNatLE rest) = octet := by
        apply UInt8.toNat_inj.mp
        rw [UInt8.toNat_ofNat']
        omega
      simp only [List.length_cons, littleEndian, toNatLE, quotient, ih, head]

/-- Every sequence is the written form of the number it denotes. -/
theorem bigEndian_toNatBE (bytes : Bytes) :
    bigEndian bytes.length (toNatBE bytes) = bytes := by
  have reversed := littleEndian_toNatLE bytes.reverse
  rw [List.length_reverse] at reversed
  simp [bigEndian, toNatBE, reversed]

end NearSigner.Bytes
