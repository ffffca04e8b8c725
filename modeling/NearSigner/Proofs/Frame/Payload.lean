import NearSigner.Proofs.Frame.Request

/-!
# The payloads of paths and hash requests

A path is twenty octets, most significant octet of every component first, and a hash
request is a path and the hash behind it.  Reading and writing are inverse to each
other for both, whatever follows a path and whatever lies behind in a buffer.
-/

namespace NearSigner

namespace Path

/-! ## Components -/

theorem toUInt8_shiftRight {word amount : UInt32} (inside : amount.toNat < 32) :
    (word >>> amount).toUInt8 = UInt8.ofNat (word.toNat / 2 ^ amount.toNat) := by
  apply UInt8.toNat_inj.mp
  rw [UInt32.toNat_toUInt8, UInt32.toNat_shiftRight, Nat.mod_eq_of_lt inside,
    Nat.shiftRight_eq_div_pow, UInt8.toNat_ofNat']

/-- The octets of a component are its bits from the top down, eight at a time. -/
theorem componentBytes_eq (component : UInt32) :
    componentBytes component =
      [(component >>> 24).toUInt8, (component >>> 16).toUInt8, (component >>> 8).toUInt8,
        component.toUInt8] := by
  have lowest : component.toUInt8 = UInt8.ofNat component.toNat :=
    UInt8.toNat_inj.mp (by rw [UInt32.toNat_toUInt8, UInt8.toNat_ofNat'])
  rw [toUInt8_shiftRight (by decide), toUInt8_shiftRight (by decide),
    toUInt8_shiftRight (by decide), lowest]
  simp only [componentBytes, Bytes.bigEndian, Bytes.littleEndian, List.reverse_cons,
    List.reverse_nil, List.nil_append, List.cons_append, Nat.div_div_eq_div_mul]
  rfl

theorem toNat_index (component : UInt32) :
    (index component).toNat = component.toNat % 2 ^ 31 := by
  have mask : (~~~hardenedBit).toNat = 2 ^ 31 - 1 := rfl
  rw [index, UInt32.toNat_and, mask, Nat.and_two_pow_sub_one_eq_mod]

theorem isHardened_iff_le {component : UInt32} :
    isHardened component = true ↔ 2 ^ 31 ≤ component.toNat := by
  have below := component.toNat_lt
  rw [isHardened_iff, BitVec.getElem_eq_testBit_toNat, UInt32.toNat_toBitVec,
    Nat.testBit_eq_decide_div_mod_eq, decide_eq_true_eq]
  omega

/-- A component is its index, with the top bit set if it is hardened. -/
theorem toNat_eq_index_add (component : UInt32) :
    component.toNat = (index component).toNat + if isHardened component then 2 ^ 31 else 0 := by
  have below := component.toNat_lt
  rw [toNat_index]
  split
  · rename_i hardened
    have high := isHardened_iff_le.mp hardened
    omega
  · rename_i plain
    have low : component.toNat < 2 ^ 31 := Nat.not_le.mp fun high =>
      plain (isHardened_iff_le.mpr high)
    omega

theorem index_lt (component : UInt32) : (index component).toNat < 2 ^ 31 := by
  rw [toNat_index]
  exact Nat.mod_lt _ (by decide)

/-! ## Whole paths -/

theorem bytes_eq_flatMap (path : Path) :
    path.bytes = path.components.flatMap fun component : UInt32 =>
      [(component >>> 24).toUInt8, (component >>> 16).toUInt8, (component >>> 8).toUInt8,
        component.toUInt8] :=
  congrArg path.components.flatMap (funext componentBytes_eq)

/-- Whatever is long enough starts with a path. -/
theorem parse_eq_error_iff {octets : Bytes} {reason : FormatError} :
    parse octets = .error reason ↔ octets.length < 20 ∧ reason = .invalidLength := by
  rw [parse]
  by_cases short : octets.length < wireLength
  · have few : octets.length < 20 := short
    simp [short, few, eq_comm]
  · have enough : ¬octets.length < 20 := short
    simp [short, enough]

/-- A path is found again in front of what was in the buffer behind it. -/
theorem parse_of_write {path : Path} {buffer written : Bytes} {used : Nat}
    (done : Buffer.write path.bytes buffer = (.ok used, written)) :
    parse written = .ok (path, buffer.drop 20) := by
  obtain ⟨_, _, rfl⟩ := (Buffer.write_puts path.bytes).ok_iff.mp done
  rw [length_bytes]
  exact parse_eq_ok_iff.mpr rfl

end Path

namespace Request

/-! ## Requests -/

/-- The payload of every request is written over the front of a buffer. -/
theorem writeTo_puts (request : Request) :
    Buffer.Puts request.writeTo True request.payload := by
  apply Buffer.Puts.of_eq
  · intro buffer roomy
    exact writeTo_of_fits roomy.2
  · intro buffer narrow
    have short : buffer.length < request.payload.length :=
      Nat.not_le.mp fun fits => narrow ⟨trivial, fits⟩
    cases request with
    | blindSign path hash =>
        rw [length_payload_blindSign] at short
        exact if_pos short
    | _ => exact if_pos short

theorem decodePath_eq_ok_iff {octets : Bytes} {path : Path} {used : Nat} :
    decodePath octets = .ok (path, used) ↔ path.bytes <+: octets ∧ used = 20 := by
  rw [decodePath]
  rcases parsed : Path.parse octets with reason | ⟨found, rest⟩
  · have few := (Path.parse_eq_error_iff.mp parsed).1
    simp only [bind, Except.bind, reduceCtorEq, false_iff, not_and]
    intro initial
    have long := initial.length_le
    rw [Path.length_bytes] at long
    exact absurd long (Nat.not_le.mpr few)
  · obtain rfl := Path.parse_eq_ok_iff.mp parsed
    simp only [bind, Except.bind, pure, Except.pure, Except.ok.injEq, Prod.mk.injEq]
    constructor
    · rintro ⟨rfl, rfl⟩
      exact ⟨List.prefix_append _ _, rfl⟩
    · rintro ⟨⟨other, same⟩, rfl⟩
      have front := (List.append_inj same (by simp)).1
      exact ⟨(Path.bytes_injective front).symm, rfl⟩

theorem decode_blindSign_eq_ok_iff {octets : Bytes} {request : Request} {used : Nat} :
    decode .blindSign octets = .ok (request, used) ↔
      (∃ path hash, request = .blindSign path hash ∧ octets = path.bytes ++ hash.toBytes) ∧
        used = 52 := by
  rw [decode]
  rcases decoded : decodeBlind octets with reason | ⟨path, hash⟩
  · simp only [Except.map, reduceCtorEq, false_iff, not_and]
    rintro ⟨path, hash, _, octets_eq⟩
    rw [decodeBlind_eq_ok_iff.mpr octets_eq] at decoded
    cases decoded
  · obtain rfl := decodeBlind_eq_ok_iff.mp decoded
    simp only [Except.map, Except.ok.injEq, Prod.mk.injEq]
    constructor
    · rintro ⟨rfl, rfl⟩
      exact ⟨⟨path, hash, rfl, rfl⟩, rfl⟩
    · rintro ⟨⟨other, otherHash, rfl, same⟩, rfl⟩
      rw [decodeBlind_eq_ok_iff.mpr same] at decoded
      cases decoded
      exact ⟨rfl, rfl⟩

theorem exists_decode_blindSign_iff {octets : Bytes} :
    (∃ request used, decode .blindSign octets = .ok (request, used)) ↔ octets.length = 52 := by
  constructor
  · rintro ⟨request, used, decoded⟩
    rcases (decode_blindSign_eq_ok_iff.mp decoded).1 with ⟨path, hash, _, rfl⟩
    exact length_payload_blindSign path hash
  · intro whole
    rcases exists_eq_of_length whole with ⟨path, hash, octets_eq⟩
    exact ⟨_, _, decode_blindSign_eq_ok_iff.mpr ⟨⟨path, hash, rfl, octets_eq⟩, rfl⟩⟩

/-- Paths and hash requests are recovered from their octets, and their octets from
them.  Twenty octets or more start with exactly one path, whose components stand there
most significant octet first, each an index of 31 bits below the bit that says whether
it is hardened; and a path in front of anything is read as that path.  Fifty-two octets,
and no other number of them, are exactly one hash request.  Both are written over the
front of every buffer that has room for them, are read there again, and leave a buffer
without room as it was. -/
theorem paths_and_hash_requests_are_recovered :
    (∀ octets reason, Path.parse octets = .error reason ↔
      octets.length < 20 ∧ reason = .invalidLength) ∧
    (∀ octets path rest, Path.parse octets = .ok (path, rest) ↔ octets = path.bytes ++ rest) ∧
    (∀ octets path used, decodePath octets = .ok (path, used) ↔
      path.bytes <+: octets ∧ used = 20) ∧
    (∀ path : Path,
      path.bytes.length = 20 ∧
      path.bytes = path.components.flatMap (fun component : UInt32 =>
        [(component >>> 24).toUInt8, (component >>> 16).toUInt8, (component >>> 8).toUInt8,
          component.toUInt8]) ∧
      (∀ component ∈ path.components,
        (Path.index component).toNat < 2 ^ 31 ∧
        component.toNat =
          (Path.index component).toNat + if Path.isHardened component then 2 ^ 31 else 0) ∧
      Buffer.Puts (Buffer.write path.bytes) True path.bytes ∧
      ∀ buffer used written, Buffer.write path.bytes buffer = (.ok used, written) →
        Path.parse written = .ok (path, buffer.drop 20)) ∧
    (∀ octets, (∃ request used, decode .blindSign octets = .ok (request, used)) ↔
      octets.length = 52) ∧
    (∀ octets request used, decode .blindSign octets = .ok (request, used) →
      used = 52 ∧ request.kind = .blindSign ∧
      ∀ buffer : Bytes, 52 ≤ buffer.length →
        request.writeTo buffer = (.ok 52, octets ++ buffer.drop 52)) ∧
    (∀ path hash,
      let request := blindSign path hash
      request.payload = path.bytes ++ hash.toBytes ∧ request.payload.length = 52 ∧
      Buffer.Puts request.writeTo True request.payload ∧
      ∀ buffer used written, request.writeTo buffer = (.ok used, written) →
        decode .blindSign (written.take used) = .ok (request, 52)) := by
  constructor
  · intro octets reason
    exact Path.parse_eq_error_iff
  constructor
  · intro octets path rest
    exact Path.parse_eq_ok_iff
  constructor
  · intro octets path used
    exact decodePath_eq_ok_iff
  constructor
  · intro path
    exact ⟨path.length_bytes, path.bytes_eq_flatMap,
      fun component _ => ⟨Path.index_lt component, Path.toNat_eq_index_add component⟩,
      Buffer.write_puts path.bytes, fun _ _ _ done => Path.parse_of_write done⟩
  constructor
  · intro octets
    exact exists_decode_blindSign_iff
  constructor
  · intro octets request used decoded
    obtain ⟨⟨path, hash, rfl, rfl⟩, used_eq⟩ := decode_blindSign_eq_ok_iff.mp decoded
    refine ⟨used_eq, rfl, ?_⟩
    intro buffer fits
    have length_eq : (blindSign path hash).payload.length = 52 :=
      length_payload_blindSign path hash
    have written := writeTo_of_fits (Nat.le_trans (Nat.le_of_eq length_eq) fits)
    rw [length_eq] at written
    exact written
  · intro path hash request
    have puts := request.writeTo_puts
    refine ⟨rfl, length_payload_blindSign path hash, puts, ?_⟩
    intro buffer used written done
    obtain ⟨_, rfl, rfl⟩ := puts.ok_iff.mp done
    rw [List.take_left]
    exact decode_blindSign_eq_ok_iff.mpr ⟨⟨path, hash, rfl, rfl⟩, rfl⟩

/-- Components of every kind keep their octets and their top bits, in a request as well. -/
theorem paths_and_hash_requests_recovered_from_mixture :
    let path : Path := ⟨0x01020304, 0x8000018D, 0, 0xFFFFFFFF, 0x7FFFFFFF⟩
    let request := blindSign path (Vector.replicate 32 9)
    let buffer : Bytes := List.replicate 53 7
    path.bytes =
      [0x01, 0x02, 0x03, 0x04, 0x80, 0x00, 0x01, 0x8D, 0x00, 0x00, 0x00, 0x00, 0xFF, 0xFF, 0xFF,
        0xFF, 0x7F, 0xFF, 0xFF, 0xFF] ∧
    Path.parse (path.bytes ++ [0xAA]) = .ok (path, [0xAA]) ∧
    Path.parse (path.bytes.take 19) = .error .invalidLength ∧
    decode .blindSign request.payload = .ok (request, 52) ∧
    request.writeTo buffer = (.ok 52, request.payload ++ [7]) ∧
    request.writeTo (buffer.drop 2) = (.error .invalidLength, buffer.drop 2) := by
  intro path request buffer
  obtain ⟨refused, parsed, _, paths, _, requests, built⟩ := paths_and_hash_requests_are_recovered
  obtain ⟨_, bytes_eq, _⟩ := paths path
  obtain ⟨_, _, puts, read⟩ := built path (Vector.replicate 32 9)
  have done : request.writeTo request.payload = (.ok 52, request.payload) :=
    puts.ok_iff.mpr ⟨by decide, rfl, by decide⟩
  have decoded : decode .blindSign request.payload = .ok (request, 52) := read _ _ _ done
  obtain ⟨_, _, written⟩ := requests _ _ _ decoded
  exact ⟨bytes_eq.trans (by decide), (parsed _ _ _).mpr rfl,
    (refused _ _).mpr ⟨by decide, rfl⟩, decoded, written buffer (by decide),
    puts.error_iff.mpr ⟨by decide, rfl, rfl⟩⟩

end Request

end NearSigner
