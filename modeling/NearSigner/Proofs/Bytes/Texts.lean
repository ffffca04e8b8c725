import Mathlib.Data.Nat.Digits.Lemmas
import NearSigner.Bytes.Base58
import NearSigner.Bytes.Hex
import NearSigner.Bytes.Utf8
import NearSigner.Bytes.Words.Range

/-!
# Texts that show octets

Hexadecimal text shows one byte sequence, and base-58 text shows one byte
sequence of every length.  The digits of both alphabets differ, so the digits
are recovered from the characters, and the octets from the digits.  Base-58 text
has two digits at most for every octet.
-/

namespace NearSigner

namespace Hex

theorem alphabet_injective : ∀ first second : Fin 16,
    alphabet[first] = alphabet[second] → first = second := by
  decide

/-- No digit opens an object in braces. -/
theorem alphabet_ne_brace : ∀ value : Fin 16, alphabet[value] ≠ '\x7b' := by
  decide

theorem digit_ne_brace (value : Nat) : digit value ≠ '\x7b' :=
  alphabet_ne_brace ⟨value % 16, Nat.mod_lt _ (by decide)⟩

theorem mod_eq_of_digit_eq {first second : Nat} (equal : digit first = digit second) :
    first % 16 = second % 16 := by
  have same := alphabet_injective ⟨first % 16, Nat.mod_lt _ (by decide)⟩
    ⟨second % 16, Nat.mod_lt _ (by decide)⟩ equal
  exact congrArg Fin.val same

theorem octetDigits_injective {first second : UInt8}
    (equal : octetDigits first = octetDigits second) : first = second := by
  simp only [octetDigits, List.cons.injEq, and_true] at equal
  have high := mod_eq_of_digit_eq equal.1
  have low := mod_eq_of_digit_eq equal.2
  have firstLt := first.toNat_lt
  have secondLt := second.toNat_lt
  apply UInt8.toNat_inj.mp
  omega

/-- Hexadecimal text shows one byte sequence. -/
theorem encode_injective {first second : Bytes} (equal : encode first = encode second) :
    first = second := by
  have digits_eq := String.ofList_inj.mp equal
  clear equal
  induction first generalizing second with
  | nil =>
      cases second with
      | nil => rfl
      | cons octet others => simp [octetDigits] at digits_eq
  | cons octet others ih =>
      cases second with
      | nil => simp [octetDigits] at digits_eq
      | cons octet' others' =>
          rw [List.flatMap_cons, List.flatMap_cons] at digits_eq
          rcases List.append_inj digits_eq rfl with ⟨octet_eq, others_eq⟩
          rw [octetDigits_injective octet_eq, ih others_eq]

/-- Hexadecimal text does not start with a brace. -/
theorem head?_encode_ne_brace (bytes : Bytes) : (encode bytes).toList.head? ≠ some '\x7b' := by
  rw [encode, String.toList_ofList]
  cases bytes with
  | nil => simp
  | cons octet others =>
      rw [List.flatMap_cons, octetDigits, List.cons_append, List.head?_cons]
      intro brace
      exact digit_ne_brace _ (Option.some.inj brace)

/-- There are two digits for every octet. -/
theorem length_encode (bytes : Bytes) : (encode bytes).length = 2 * bytes.length := by
  rw [encode, String.length_ofList, List.length_flatMap]
  simp [octetDigits, Nat.mul_comm]

theorem digit_mem (value : Nat) : digit value ∈ alphabet :=
  Vector.getElem_mem _

/-- The text consists of upper-case digits. -/
theorem mem_alphabet_of_mem_encode {bytes : Bytes} {char : Char}
    (member : char ∈ (encode bytes).toList) : char ∈ alphabet := by
  rw [encode, String.toList_ofList, List.mem_flatMap] at member
  rcases member with ⟨octet, _, among⟩
  simp only [octetDigits, List.mem_cons, List.not_mem_nil, or_false] at among
  rcases among with rfl | rfl
  · exact digit_mem _
  · exact digit_mem _

end Hex

namespace Base58

theorem alphabet_injective : Function.Injective alphabet.get := by
  decide +kernel

/-- The digits of a number determine it. -/
theorem ofDigits_digits (value : Nat) :
    Nat.ofDigits 58 ((digits value).map Fin.val) = value := by
  induction value using digits.induct with
  | case1 => simp [digits]
  | case2 value positive ih =>
      rw [digits, if_neg positive, List.map_cons, Nat.ofDigits_cons, ih]
      exact Nat.mod_add_div value 58

/-- The digits that base-58 text shows, the zeros in front of the number
included. -/
def shownDigits (bytes : Bytes) : List (Fin 58) :=
  List.replicate (leadingZeros bytes) 0 ++ (digits (Bytes.toNatBE bytes)).reverse

theorem encodeChars_eq_map (bytes : Bytes) :
    encodeChars bytes = (shownDigits bytes).map alphabet.get := by
  rw [encodeChars, shownDigits, List.map_append, List.map_replicate]
  rfl

/-- The number is recovered from the digits shown, since zeros in front of it
do not count. -/
theorem ofDigits_shownDigits (bytes : Bytes) :
    Nat.ofDigits 58 ((shownDigits bytes).reverse.map Fin.val) = Bytes.toNatBE bytes := by
  rw [shownDigits, List.reverse_append, List.reverse_reverse, List.reverse_replicate,
    List.map_append, List.map_replicate]
  exact (Nat.ofDigits_append_replicate_zero _).trans (ofDigits_digits _)

/-- Base-58 text shows one byte sequence of every length. -/
theorem encode_injective {first second : Bytes} (sameLength : first.length = second.length)
    (equal : encode first = encode second) : first = second := by
  have chars_eq := String.ofList_inj.mp equal
  rw [encodeChars_eq_map, encodeChars_eq_map] at chars_eq
  have digits_eq : shownDigits first = shownDigits second :=
    List.map_injective_iff.mpr alphabet_injective chars_eq
  have number_eq : Bytes.toNatBE first = Bytes.toNatBE second := by
    rw [← ofDigits_shownDigits, digits_eq, ofDigits_shownDigits]
  rw [← Bytes.bigEndian_toNatBE first, number_eq, sameLength, Bytes.bigEndian_toNatBE]

/-- Base-58 text shows one block. -/
theorem encode_toBytes_injective {n : Nat} {first second : Block n}
    (equal : encode first.toBytes = encode second.toBytes) : first = second := by
  apply Vector.toList_inj.mp
  exact encode_injective (by simp) equal

end Base58

/-! ## The length of base-58 text -/

namespace Bytes

theorem length_ofText_ofList {chars : List Char} (single : ∀ char ∈ chars, char.utf8Size = 1) :
    (ofText (String.ofList chars)).length = chars.length := by
  have sizes : chars.map (fun char => (String.utf8EncodeChar char).length) =
      chars.map fun _ => 1 := by
    apply List.map_congr_left
    intro char member
    rw [String.length_utf8EncodeChar, single char member]
  rw [length_ofText, ← String.size_toByteArray, String.toByteArray_ofList, List.utf8Encode,
    List.size_toByteArray, List.length_flatMap, sizes]
  simp

theorem toNatLE_append_zeros (bytes : Bytes) (count : Nat) :
    toNatLE (bytes ++ List.replicate count 0) = toNatLE bytes := by
  induction bytes with
  | nil =>
      induction count with
      | zero => rfl
      | succ count ih => simpa [List.replicate_succ, toNatLE] using ih
  | cons octet rest ih => rw [List.cons_append, toNatLE, toNatLE, ih]

end Bytes

namespace Base58

theorem utf8Size_alphabet : ∀ digit : Fin 58, (alphabet.get digit).utf8Size = 1 := by
  decide +kernel

theorem length_digits_le {value count : Nat} (below : value < 58 ^ count) :
    (digits value).length ≤ count := by
  induction count generalizing value with
  | zero =>
      have zero : value = 0 := by omega
      rw [digits, if_pos zero]
      exact Nat.le_refl 0
  | succ count ih =>
      rw [digits]
      by_cases zero : value = 0
      · rw [if_pos zero]
        exact Nat.zero_le _
      · rw [if_neg zero, List.length_cons]
        rw [Nat.pow_succ, Nat.mul_comm] at below
        exact Nat.succ_le_succ (ih (Nat.div_lt_of_lt_mul below))

/-- The zeros in front of a number do not count. -/
theorem toNatBE_lt_of_leadingZeros (bytes : Bytes) :
    Bytes.toNatBE bytes < 256 ^ (bytes.length - leadingZeros bytes) := by
  have zeros : bytes.takeWhile (· == 0) = List.replicate (leadingZeros bytes) 0 := by
    rw [leadingZeros, List.eq_replicate_iff]
    refine ⟨rfl, fun octet member => ?_⟩
    simpa using List.all_eq_true.mp List.all_takeWhile octet member
  have split_eq : bytes = List.replicate (leadingZeros bytes) 0 ++ bytes.dropWhile (· == 0) := by
    rw [← zeros, List.takeWhile_append_dropWhile]
  have rest_length : (bytes.dropWhile (· == 0)).length = bytes.length - leadingZeros bytes := by
    have length_eq := congrArg List.length split_eq
    rw [List.length_append, List.length_replicate] at length_eq
    omega
  have number_eq : Bytes.toNatBE bytes = Bytes.toNatBE (bytes.dropWhile (· == 0)) := by
    conv_lhs => rw [split_eq]
    rw [Bytes.toNatBE, List.reverse_append, List.reverse_replicate, Bytes.toNatLE_append_zeros]
    rfl
  rw [number_eq, ← rest_length]
  exact Bytes.toNatBE_lt _

/-- Two digits are enough for every octet. -/
theorem length_encodeChars_le (bytes : Bytes) :
    (encodeChars bytes).length ≤ 2 * bytes.length := by
  have zeros_le : leadingZeros bytes ≤ bytes.length := (List.takeWhile_prefix _).length_le
  have wide : (256 : Nat) ^ (bytes.length - leadingZeros bytes) ≤
      58 ^ (2 * (bytes.length - leadingZeros bytes)) := by
    rw [Nat.pow_mul]
    exact Nat.pow_le_pow_left (by decide) _
  have digits_le := length_digits_le (Nat.lt_of_lt_of_le (toNatBE_lt_of_leadingZeros bytes) wide)
  rw [encodeChars, List.length_append, List.length_replicate, List.length_map,
    List.length_reverse]
  omega

theorem length_ofText_encode_le (bytes : Bytes) :
    (Bytes.ofText (encode bytes)).length ≤ 2 * bytes.length := by
  have single : ∀ char ∈ encodeChars bytes, char.utf8Size = 1 := by
    intro char member
    rw [encodeChars_eq_map, List.mem_map] at member
    rcases member with ⟨digit, _, rfl⟩
    exact utf8Size_alphabet digit
  rw [encode, Bytes.length_ofText_ofList single]
  exact length_encodeChars_le bytes

end Base58
end NearSigner
