import NearSigner.Bytes.Utf8
import NearSigner.Bytes.Words

/-!
# Canonical binary encoding of values

Integers are written least significant octet first in their full width; texts
and byte strings follow their length, and sequences the number of their
elements, as a word of 32 bits.  An optional value follows a tag that says
whether it is there.  The length of everything that carries one must be below
`2 ^ 32` for the written length to be exact.
-/

namespace NearSigner.Borsh

/-- Unsigned integers of 128 bits. -/
abbrev UInt128 := BitVec 128

/-- The encoding of an integer of 32 bits. -/
def u32 (value : UInt32) : Bytes :=
  Bytes.littleEndian 4 value.toNat

/-- The encoding of an integer of 64 bits. -/
def u64 (value : UInt64) : Bytes :=
  Bytes.littleEndian 8 value.toNat

/-- The encoding of an integer of 128 bits. -/
def u128 (value : UInt128) : Bytes :=
  Bytes.littleEndian 16 value.toNat

/-- The encoding of a length. -/
def length (value : Nat) : Bytes :=
  u32 (UInt32.ofNat value)

/-- The encoding of a byte string. -/
def byteString (bytes : Bytes) : Bytes :=
  length bytes.length ++ bytes

/-- The encoding of a text. -/
def text (text : String) : Bytes :=
  byteString (Bytes.ofText text)

/-- The encoding of a value that may be missing. -/
def option {α : Type} (encode : α → Bytes) : Option α → Bytes
  | none => [0]
  | some value => 1 :: encode value

/-- The encoding of a sequence. -/
def sequence {α : Type} (encode : α → Bytes) (values : List α) : Bytes :=
  length values.length ++ values.flatMap encode

/-! ## Lengths of encodings -/

@[simp]
theorem length_u32 (value : UInt32) : (u32 value).length = 4 :=
  Bytes.length_littleEndian 4 _

@[simp]
theorem length_u64 (value : UInt64) : (u64 value).length = 8 :=
  Bytes.length_littleEndian 8 _

@[simp]
theorem length_u128 (value : UInt128) : (u128 value).length = 16 :=
  Bytes.length_littleEndian 16 _

@[simp]
theorem length_length (value : Nat) : (length value).length = 4 :=
  length_u32 _

@[simp]
theorem length_byteString (bytes : Bytes) : (byteString bytes).length = 4 + bytes.length := by
  rw [byteString, List.length_append, length_length]

@[simp]
theorem length_text (value : String) : (text value).length = 4 + value.utf8ByteSize := by
  rw [text, length_byteString, Bytes.length_ofText]

@[simp]
theorem length_sequence {α : Type} (encode : α → Bytes) (values : List α) :
    (sequence encode values).length = 4 + (values.flatMap encode).length := by
  rw [sequence, List.length_append, length_length]

end NearSigner.Borsh
