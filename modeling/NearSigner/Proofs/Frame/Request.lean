import NearSigner.Frame.Request
import NearSigner.Proofs.Path

/-!
# Payloads of requests

A payload is written over the front of every buffer that can hold it.  The
payload of a hash signing request is the wire form of a path and a hash, and
nothing else is read as one.
-/

namespace NearSigner

/-! ## Writing over the front of a buffer -/

namespace Buffer

theorem overwrite_front (buffer content : Bytes) :
    overwrite buffer 0 content = content ++ buffer.drop content.length := by
  simp [overwrite]

/-- Writing one content behind another is writing both at once. -/
theorem overwrite_behind (first second rest : Bytes) :
    overwrite (first ++ rest) first.length second =
      (first ++ second) ++ rest.drop second.length := by
  simp [overwrite]

theorem write_of_fits {content buffer : Bytes} (fits : content.length ≤ buffer.length) :
    write content buffer = (.ok content.length, content ++ buffer.drop content.length) := by
  rw [write, if_neg (Nat.not_lt.mpr fits), overwrite_front]

/-- A writer puts its content over the front of every buffer that has room for it,
when the content can be written at all, and keeps what lies behind.  It refuses every
other buffer and leaves it as it was. -/
structure Puts (writer : Bytes → Written) (Writable : Prop) (content : Bytes) : Prop where
  ok_iff : ∀ {buffer : Bytes} {used : Nat} {written : Bytes},
    writer buffer = (.ok used, written) ↔
      (Writable ∧ content.length ≤ buffer.length) ∧
        used = content.length ∧ written = content ++ buffer.drop content.length
  error_iff : ∀ {buffer : Bytes} {reason : FormatError} {written : Bytes},
    writer buffer = (.error reason, written) ↔
      ¬(Writable ∧ content.length ≤ buffer.length) ∧ reason = .invalidLength ∧ written = buffer

/-- It is enough to know what a writer does with each kind of buffer. -/
theorem Puts.of_eq {writer : Bytes → Written} {Writable : Prop} {content : Bytes}
    (accepted : ∀ buffer, Writable ∧ content.length ≤ buffer.length →
      writer buffer = (.ok content.length, content ++ buffer.drop content.length))
    (refused : ∀ buffer, ¬(Writable ∧ content.length ≤ buffer.length) →
      writer buffer = (.error .invalidLength, buffer)) : Puts writer Writable content := by
  constructor
  · intro buffer used written
    by_cases roomy : Writable ∧ content.length ≤ buffer.length
    · simp [accepted buffer roomy, roomy, eq_comm]
    · simp [refused buffer roomy, roomy]
  · intro buffer reason written
    by_cases roomy : Writable ∧ content.length ≤ buffer.length
    · simp [accepted buffer roomy, roomy]
    · simp [refused buffer roomy, roomy, eq_comm]

theorem write_puts (content : Bytes) : Puts (write content) True content := by
  apply Puts.of_eq
  · intro buffer roomy
    exact write_of_fits roomy.2
  · intro buffer narrow
    exact if_pos (Nat.not_le.mp fun fits => narrow ⟨trivial, fits⟩)

end Buffer

namespace Request

theorem length_payload_blindSign (path : Path) (hash : Block 32) :
    (blindSign path hash).payload.length = blindPayloadLength := by
  simp [payload, blindPayloadLength, hashLength]

/-- A payload that fits is written over the front of a buffer. -/
theorem writeTo_of_fits {request : Request} {buffer : Bytes}
    (fits : request.payload.length ≤ buffer.length) :
    request.writeTo buffer =
      (.ok request.payload.length, request.payload ++ buffer.drop request.payload.length) := by
  cases request with
  | blindSign path hash =>
      have length_eq := length_payload_blindSign path hash
      have roomy : ¬buffer.length < blindPayloadLength := by
        rw [← length_eq]
        exact Nat.not_lt.mpr fits
      have pathFits : path.bytes.length ≤ buffer.length :=
        Nat.le_trans (by simp [payload]) fits
      simp only [writeTo, if_neg roomy, Buffer.write_of_fits pathFits, Buffer.overwrite_behind,
        List.drop_drop, length_eq]
      simp [payload, blindPayloadLength, hashLength]
  | _ => exact Buffer.write_of_fits fits

/-! ## Hash signing requests -/

theorem decodeBlind_eq_ok_iff {data : Bytes} {path : Path} {hash : Block 32} :
    decodeBlind data = .ok (path, hash) ↔ data = path.bytes ++ hash.toBytes := by
  unfold decodeBlind
  constructor
  · intro decoded
    by_cases exact_length : data.length = blindPayloadLength
    · rw [if_pos exact_length] at decoded
      rcases parsed : Path.parse data with reason | ⟨found, rest⟩
      · rw [parsed] at decoded
        cases decoded
      · rcases recovered : Block.ofBytes? hashLength rest with _ | block
        · simp only [parsed, recovered, bind, Except.bind] at decoded
          cases decoded
        · simp only [parsed, recovered, bind, Except.bind] at decoded
          cases decoded
          rw [Path.parse_eq_ok_iff.mp parsed, Block.ofBytes?_eq_some_iff.mp recovered]
          rfl
    · rw [if_neg exact_length] at decoded
      cases decoded
  · rintro rfl
    have exact_length : (path.bytes ++ hash.toBytes).length = blindPayloadLength := by
      rw [List.length_append, Path.length_bytes, Vector.length_toList]
      rfl
    have recovered : Block.ofBytes? hashLength hash.toBytes = some hash :=
      Block.ofBytes?_toBytes hash
    rw [if_pos exact_length]
    simp only [Path.parse_eq_ok_iff.mpr rfl, recovered, bind, Except.bind]
    rfl

/-- Every payload of that length is a path and a hash. -/
theorem exists_eq_of_length {data : Bytes} (whole : data.length = blindPayloadLength) :
    ∃ (path : Path) (hash : Block 32), data = path.bytes ++ hash.toBytes := by
  have long : ¬data.length < Path.wireLength := by
    rw [whole]
    decide
  rcases parsed : Path.parse data with reason | ⟨path, rest⟩
  · rw [Path.parse, if_neg long] at parsed
    cases parsed
  · obtain rfl := Path.parse_eq_ok_iff.mp parsed
    rw [List.length_append, Path.length_bytes] at whole
    have rest_length : rest.length = 32 := Nat.add_left_cancel whole
    exact ⟨path, ⟨rest.toArray, rest_length⟩, rfl⟩

end Request

end NearSigner
