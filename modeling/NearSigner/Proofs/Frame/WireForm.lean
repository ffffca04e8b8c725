import NearSigner.Proofs.Frame.Commands

/-!
# The wire form of a frame

Writing a frame and reading it are inverse to each other.  What is written is read
back, what is read is written again as it was, and the fifth octet settles where a
frame ends, so that none is the beginning of another.
-/

namespace NearSigner.Frame

theorem length_bytes (frame : Frame) : frame.bytes.length = frame.wireLength := by
  rw [bytes, List.length_append, List.length_cons, wireLength, Nat.add_comm frame.data.length 1,
    ← Nat.add_assoc]
  rfl

/-- A frame is written when its data can be counted in one octet. -/
theorem writeTo_puts (frame : Frame) :
    Buffer.Puts frame.writeTo (frame.data.length ≤ maxData) frame.bytes := by
  apply Buffer.Puts.of_eq
  · rintro buffer ⟨counted, fits⟩
    rw [length_bytes] at fits
    exact writeTo_of_fits counted fits
  · intro buffer narrow
    rw [length_bytes] at narrow
    have refused : maxData < frame.data.length ∨ buffer.length < frame.wireLength := by
      rcases Nat.lt_or_ge maxData frame.data.length with long | counted
      · exact .inl long
      · exact .inr (Nat.not_le.mp fun fits => narrow ⟨counted, fits⟩)
    exact if_pos refused

/-- Octets are a frame exactly when their fifth one says how many follow it. -/
theorem exists_decode_eq_ok_iff {octets : Bytes} :
    (∃ frame used, decode octets = .ok (frame, used)) ↔
      5 ≤ octets.length ∧ octets[4]?.map UInt8.toNat = some (octets.length - 5) := by
  rcases decoded : decode octets with reason | ⟨frame, used⟩
  · simp only [reduceCtorEq, exists_false, false_iff]
    rintro ⟨long, counted⟩
    rcases decode_eq_error_iff.mp decoded with ⟨_, short | ⟨count, present, differs⟩⟩
    · exact absurd long (Nat.not_le.mpr short)
    · rw [present] at counted
      exact differs (Option.some.inj counted)
  · obtain ⟨octets_eq, small, _⟩ := decode_eq_ok_iff.mp decoded
    have long : octets.length = 5 + frame.data.length := by
      rw [octets_eq, length_bytes]
      rfl
    have count : octets[4]? = some (UInt8.ofNat frame.data.length) := by
      rw [octets_eq]
      rfl
    refine iff_of_true ⟨frame, used, rfl⟩ ⟨by omega, ?_⟩
    rw [count, Option.map_some, UInt8.toNat_ofNat_of_lt' (Nat.lt_succ_of_le small), long,
      Nat.add_sub_cancel_left]

/-- A frame is not the beginning of another one. -/
theorem eq_of_isPrefix {first second : Bytes} (initial : first <+: second)
    (firstRead : ∃ frame used, decode first = .ok (frame, used))
    (secondRead : ∃ frame used, decode second = .ok (frame, used)) : first = second := by
  obtain ⟨long, firstCount⟩ := exists_decode_eq_ok_iff.mp firstRead
  obtain ⟨_, secondCount⟩ := exists_decode_eq_ok_iff.mp secondRead
  rcases initial with ⟨rest, rfl⟩
  -- Both have the fifth octet in common, and so the same length.
  have common : (first ++ rest)[4]? = first[4]? := List.getElem?_append_left long
  rw [common, firstCount, List.length_append] at secondCount
  have rest_nil : rest.length = 0 := by
    have := Option.some.inj secondCount
    omega
  rw [List.length_eq_zero_iff.mp rest_nil, List.append_nil]

/-- Beside a frame there is no other among its beginnings and its continuations. -/
theorem decode_of_isPrefix {octets other : Bytes} {frame : Frame} {used : Nat}
    (decoded : decode octets = .ok (frame, used)) (differs : other ≠ octets)
    (aligned : other <+: octets ∨ octets <+: other) : decode other = .error .invalidLength := by
  rcases read : decode other with reason | ⟨otherFrame, otherUsed⟩
  · rw [(decode_eq_error_iff.mp read).1]
  · rcases aligned with shorter | longer
    · exact absurd (eq_of_isPrefix shorter ⟨_, _, read⟩ ⟨_, _, decoded⟩) differs
    · exact absurd (eq_of_isPrefix longer ⟨_, _, decoded⟩ ⟨_, _, read⟩).symm differs

/-- Frames and their octets determine each other.  A frame is written exactly when it
has at most 255 octets of data and the buffer has room for five octets more; it is
then written over the front, and is what is read there.  Octets are read exactly when
there are five of them and the fifth says how many follow; they are then what the
frame is written as, no other octets are read as that frame, and no frame is read from
a beginning of them or from a continuation. -/
theorem frames_and_octets_determine_each_other :
    (∀ frame : Frame,
      frame.wireLength = 5 + frame.data.length ∧ frame.bytes.length = frame.wireLength ∧
      Buffer.Puts frame.writeTo (frame.data.length ≤ 255) frame.bytes ∧
      ∀ buffer used written, frame.writeTo buffer = (.ok used, written) →
        written.length = buffer.length ∧
        decode (written.take used) = .ok (frame, frame.wireLength)) ∧
    (∀ octets : Bytes, (∃ frame used, decode octets = .ok (frame, used)) ↔
      5 ≤ octets.length ∧ octets[4]?.map UInt8.toNat = some (octets.length - 5)) ∧
    (∀ octets frame used, decode octets = .ok (frame, used) →
      used = octets.length ∧
      (∀ buffer : Bytes, used ≤ buffer.length →
        frame.writeTo buffer = (.ok used, octets ++ buffer.drop used)) ∧
      (∀ other otherUsed, decode other = .ok (frame, otherUsed) → other = octets) ∧
      ∀ other, other ≠ octets → other <+: octets ∨ octets <+: other →
        decode other = .error .invalidLength) := by
  constructor
  · intro frame
    refine ⟨rfl, frame.length_bytes, frame.writeTo_puts, ?_⟩
    intro buffer used written done
    obtain ⟨⟨counted, fits⟩, rfl, rfl⟩ := frame.writeTo_puts.ok_iff.mp done
    constructor
    · rw [List.length_append, List.length_drop, Nat.add_sub_cancel' fits]
    · rw [List.take_left, ← length_bytes]
      exact decode_bytes counted
  constructor
  · intro octets
    exact exists_decode_eq_ok_iff
  · intro octets frame used decoded
    obtain ⟨octets_eq, counted, used_eq⟩ := decode_eq_ok_iff.mp decoded
    refine ⟨used_eq, ?_, ?_, fun other differs aligned =>
      decode_of_isPrefix decoded differs aligned⟩
    · intro buffer fits
      rw [used_eq, octets_eq] at fits ⊢
      exact frame.writeTo_puts.ok_iff.mpr ⟨⟨counted, fits⟩, rfl, rfl⟩
    · intro other otherUsed otherDecoded
      exact (decode_eq_ok_iff.mp otherDecoded).1.trans octets_eq.symm

/-- A frame with as many octets of data as can be counted is written and read back; one
octet more cannot be counted, and one octet behind the frame makes it unreadable. -/
theorem frames_at_the_limit_of_the_count :
    let frame : Frame := ⟨⟨0x80, 0x02, 0x80, 0x57⟩, List.replicate 255 7⟩
    let longer : Frame := ⟨frame.header, 7 :: frame.data⟩
    let buffer : Bytes := List.replicate 262 9
    frame.writeTo buffer = (.ok 260, frame.bytes ++ [9, 9]) ∧
    decode frame.bytes = .ok (frame, 260) ∧
    longer.writeTo buffer = (.error .invalidLength, buffer) ∧
    decode (frame.bytes ++ [7]) = .error .invalidLength := by
  intro frame longer buffer
  obtain ⟨written, _, read⟩ := frames_and_octets_determine_each_other
  obtain ⟨_, length_eq, puts, back⟩ := written frame
  obtain ⟨_, _, longerPuts, _⟩ := written longer
  have data_length : frame.data.length = 255 := List.length_replicate
  have size : frame.bytes.length = 260 := by
    rw [length_eq, wireLength, data_length, headerLength]
  have room : buffer.length = 262 := List.length_replicate
  have behind : buffer.drop 260 = [9, 9] := List.drop_replicate
  have done : frame.writeTo buffer = (.ok 260, frame.bytes ++ [9, 9]) :=
    puts.ok_iff.mpr ⟨⟨by omega, by omega⟩, size.symm, by rw [size, behind]⟩
  have decoded : decode frame.bytes = .ok (frame, 260) := by
    have again := (back _ _ _ done).2
    rwa [← size, List.take_left, ← length_eq, size] at again
  have uncounted : ¬longer.data.length ≤ 255 := by
    rw [List.length_cons, data_length]
    decide
  have differs : frame.bytes ++ [7] ≠ frame.bytes := by
    simp
  obtain ⟨_, _, _, alone⟩ := read _ _ _ decoded
  exact ⟨done, decoded,
    longerPuts.error_iff.mpr ⟨fun writable => uncounted writable.1, rfl, rfl⟩,
    alone _ differs (.inr (List.prefix_append _ _))⟩

end NearSigner.Frame
