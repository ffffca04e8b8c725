/-!
# Byte sequences

Everything that crosses the boundary of the device is a finite sequence of
octets.  Sequences of any length are lists; keys, hashes and signatures have a
length that never varies and are vectors, so that the length is part of the
type.
-/

namespace NearSigner

/-- A sequence of octets of any length. -/
abbrev Bytes := List UInt8

/-- A sequence of exactly `n` octets. -/
abbrev Block (n : Nat) := Vector UInt8 n

namespace Block

/-- The block as a sequence that forgets its length. -/
abbrev toBytes {n : Nat} (block : Block n) : Bytes :=
  block.toList

/-- The block with the given octets, when there are exactly `n` of them. -/
def ofBytes? (n : Nat) (bytes : Bytes) : Option (Block n) :=
  if exact : bytes.length = n then
    some ⟨bytes.toArray, by simpa using exact⟩
  else
    none

@[simp]
theorem ofBytes?_toBytes {n : Nat} (block : Block n) :
    ofBytes? n block.toBytes = some block := by
  have exact : block.toBytes.length = n := by simp
  simp only [ofBytes?, exact, dite_true]
  congr 1

/-- A block is recovered from a sequence exactly when the sequence is that
block's. -/
theorem ofBytes?_eq_some_iff {n : Nat} {bytes : Bytes} {block : Block n} :
    ofBytes? n bytes = some block ↔ bytes = block.toBytes := by
  constructor
  · intro recovered
    unfold ofBytes? at recovered
    split at recovered
    · cases recovered
      simp
    · cases recovered
  · rintro rfl
    exact ofBytes?_toBytes block

/-- Sequences of another length hold no block. -/
theorem ofBytes?_eq_none_iff {n : Nat} {bytes : Bytes} :
    ofBytes? n bytes = none ↔ bytes.length ≠ n := by
  simp [ofBytes?]

end Block

end NearSigner
