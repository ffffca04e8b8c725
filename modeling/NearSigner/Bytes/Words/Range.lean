import Mathlib.Algebra.Group.Nat.Defs
import NearSigner.Bytes.Words

/-!
# The range of words

A sequence of `n` octets denotes one of the numbers below `256 ^ n`, and
writing a number in `n` octets keeps it modulo `256 ^ n`.
-/

namespace NearSigner.Bytes

/-- A sequence of `n` octets denotes a number below `256 ^ n`. -/
theorem toNatLE_lt (bytes : Bytes) : toNatLE bytes < 256 ^ bytes.length := by
  induction bytes with
  | nil => simp [toNatLE]
  | cons octet rest ih =>
      have octetLt := octet.toNat_lt
      simp only [toNatLE, List.length_cons, Nat.pow_succ]
      omega

/-- A sequence of `n` octets denotes a number below `256 ^ n`. -/
theorem toNatBE_lt (bytes : Bytes) : toNatBE bytes < 256 ^ bytes.length := by
  simpa [toNatBE] using toNatLE_lt bytes.reverse

/-- Writing keeps a number modulo the size of the word. -/
theorem toNatLE_littleEndian (width value : Nat) :
    toNatLE (littleEndian width value) = value % 256 ^ width := by
  induction width generalizing value with
  | zero => simp [littleEndian, toNatLE, Nat.mod_one]
  | succ width ih =>
      have low : (UInt8.ofNat value).toNat = value % 256 := by simp
      rw [littleEndian, toNatLE, ih, low, Nat.pow_succ, Nat.mul_comm (256 ^ width) 256,
        Nat.mod_mul]

/-- Octets are the written form of the number that they denote, and of no other. -/
theorem littleEndian_eq_iff {width value : Nat} {octets : Bytes}
    (bounded : value < 256 ^ width) :
    littleEndian width value = octets ↔ octets.length = width ∧ value = toNatLE octets := by
  constructor
  · rintro rfl
    rw [length_littleEndian, toNatLE_littleEndian, Nat.mod_eq_of_lt bounded]
    exact ⟨rfl, rfl⟩
  · rintro ⟨rfl, rfl⟩
    exact littleEndian_toNatLE octets

/-- Writing keeps a number modulo the size of the word. -/
theorem toNatBE_bigEndian (width value : Nat) :
    toNatBE (bigEndian width value) = value % 256 ^ width := by
  simp [toNatBE, bigEndian, toNatLE_littleEndian]

end NearSigner.Bytes
