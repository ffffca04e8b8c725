import NearSigner.Bytes.Words.Range
import NearSigner.Path
import Mathlib.Tactic.ByContra

/-!
# Paths on the wire

A path is read from its wire form and from nothing else, whatever follows it.
The paths of accounts are those whose first two components are two fixed words.
-/

namespace NearSigner.Path

/-! ## Components -/

theorem componentBytes_injective {first second : UInt32}
    (equal : componentBytes first = componentBytes second) : first = second := by
  have bounded (component : UInt32) : component.toNat % 256 ^ 4 = component.toNat :=
    Nat.mod_eq_of_lt component.toNat_lt
  have values := congrArg Bytes.toNatBE equal
  simp only [componentBytes, Bytes.toNatBE_bigEndian, bounded] at values
  exact UInt32.toNat_inj.mp values

@[simp]
theorem length_componentBytes (component : UInt32) : (componentBytes component).length = 4 := by
  simp [componentBytes]

/-- Four octets are the wire form of the component that they denote. -/
theorem componentBytes_componentAt {bytes : Bytes} {offset : Nat}
    (inside : offset + 4 ≤ bytes.length) :
    componentBytes (componentAt bytes offset) = (bytes.drop offset).take 4 := by
  have length_eq : ((bytes.drop offset).take 4).length = 4 := by
    rw [List.length_take, List.length_drop]
    omega
  have bounded : Bytes.toNatBE ((bytes.drop offset).take 4) < 2 ^ 32 := by
    have below := Bytes.toNatBE_lt ((bytes.drop offset).take 4)
    rwa [length_eq] at below
  have written := Bytes.bigEndian_toNatBE ((bytes.drop offset).take 4)
  rw [length_eq] at written
  rw [componentBytes, componentAt, UInt32.toNat_ofNat_of_lt' bounded, written]

/-! ## Whole paths -/

theorem bytes_eq (path : Path) :
    path.bytes =
      componentBytes path.purpose ++ (componentBytes path.coinType ++
        (componentBytes path.account ++ (componentBytes path.change ++
          componentBytes path.address))) := by
  simp [bytes, components]

theorem bytes_injective {first second : Path} (equal : first.bytes = second.bytes) :
    first = second := by
  rcases first with ⟨purpose, coinType, account, change, address⟩
  rcases second with ⟨purpose', coinType', account', change', address'⟩
  simp only [bytes_eq] at equal
  rcases List.append_inj equal (by simp) with ⟨purpose_eq, equal⟩
  rcases List.append_inj equal (by simp) with ⟨coinType_eq, equal⟩
  rcases List.append_inj equal (by simp) with ⟨account_eq, equal⟩
  rcases List.append_inj equal (by simp) with ⟨change_eq, address_eq⟩
  rw [componentBytes_injective purpose_eq, componentBytes_injective coinType_eq,
    componentBytes_injective account_eq, componentBytes_injective change_eq,
    componentBytes_injective address_eq]

/-- A path that is read was written there. -/
theorem eq_bytes_append_of_parse {octets rest : Bytes} {path : Path}
    (parsed : parse octets = .ok (path, rest)) : octets = path.bytes ++ rest := by
  unfold parse at parsed
  split at parsed
  · cases parsed
  · rename_i long
    have inside : 20 ≤ octets.length := Nat.not_lt.mp long
    cases parsed
    rw [bytes_eq]
    rw [componentBytes_componentAt (by omega), componentBytes_componentAt (by omega),
      componentBytes_componentAt (by omega), componentBytes_componentAt (by omega),
      componentBytes_componentAt (by omega)]
    -- Each group of four is followed by the octets beyond it.
    have regroup (offset : Nat) :
        (octets.drop offset).take 4 ++ octets.drop (offset + 4) = octets.drop offset := by
      rw [← List.drop_drop, List.take_append_drop]
    have whole : octets.drop 0 = octets := rfl
    simp only [List.append_assoc, wireLength, componentCount]
    rw [regroup 16, regroup 12, regroup 8, regroup 4, regroup 0, whole]

/-- A path is read exactly from its wire form. -/
theorem parse_eq_ok_iff {octets rest : Bytes} {path : Path} :
    parse octets = .ok (path, rest) ↔ octets = path.bytes ++ rest := by
  constructor
  · exact eq_bytes_append_of_parse
  · rintro rfl
    cases parsed : parse (path.bytes ++ rest) with
    | error reason =>
        unfold parse at parsed
        rw [if_neg (by simp)] at parsed
        cases parsed
    | ok found =>
        rcases found with ⟨other, otherRest⟩
        have same := eq_bytes_append_of_parse parsed
        rcases List.append_inj same (by simp) with ⟨bytes_eq, rest_eq⟩
        rw [bytes_injective bytes_eq, rest_eq]

/-! ## Accounts -/

theorem getElem_hardenedBit {place : Nat} (inside : place < 32) :
    hardenedBit.toBitVec[place] = decide (place = 31) := by
  have power : hardenedBit.toBitVec = BitVec.twoPow 32 31 := by decide
  simp only [power, BitVec.getElem_twoPow]

theorem isHardened_iff {component : UInt32} :
    isHardened component = true ↔ component.toBitVec[31] = true := by
  rw [isHardened, bne_iff_ne, ne_eq, ← UInt32.toBitVec_inj]
  constructor
  · intro hardened
    by_contra clear
    apply hardened
    ext place inside
    by_cases top : place = 31
    · subst top
      simp [clear]
    · simp [getElem_hardenedBit, top]
  · intro set zero
    have top := congrArg (·[31]) zero
    simp [getElem_hardenedBit, set] at top

theorem isHardenedIndex_iff {component expected : UInt32}
    (small : expected.toBitVec[31] = false) :
    isHardenedIndex component expected = true ↔ component = expected ||| hardenedBit := by
  rw [isHardenedIndex, Bool.and_eq_true, isHardened_iff, index, beq_iff_eq]
  constructor
  · rintro ⟨hardened, rfl⟩
    rw [← UInt32.toBitVec_inj]
    ext place inside
    by_cases top : place = 31
    · subst top
      simpa [getElem_hardenedBit] using hardened
    · simp [getElem_hardenedBit, top]
  · rintro rfl
    constructor
    · simp [getElem_hardenedBit]
    · rw [← UInt32.toBitVec_inj]
      ext place inside
      by_cases top : place = 31
      · subst top
        simp [getElem_hardenedBit, small]
      · simp [getElem_hardenedBit, top]

/-- The paths of accounts. -/
theorem isAccount_iff {path : Path} :
    path.isAccount = true ↔ path.purpose = 0x8000002C ∧ path.coinType = 0x8000018D := by
  rw [isAccount, Bool.and_eq_true, isHardenedIndex_iff (by decide),
    isHardenedIndex_iff (by decide)]
  rfl

end NearSigner.Path
