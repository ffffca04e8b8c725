import NearSigner.Bytes.Basic
import NearSigner.FormatError

/-!
# Writing into buffers of fixed size

An encoding is written over the front of a buffer whose size is given.  The
buffer keeps its size, the octets behind the encoding stay as they were, and a
buffer that is too small is not touched at all.
-/

namespace NearSigner.Buffer

/-- The result of writing: the number of octets written, or the reason why
there are none, and the buffer afterwards. -/
abbrev Written := Except FormatError Nat × Bytes

/-- Replace the octets of a buffer from `offset` on by `content`. -/
def overwrite (buffer : Bytes) (offset : Nat) (content : Bytes) : Bytes :=
  buffer.take offset ++ content ++ buffer.drop (offset + content.length)

/-- Write `content` over the front of a buffer, when it fits. -/
def write (content buffer : Bytes) : Written :=
  if buffer.length < content.length then
    (.error .invalidLength, buffer)
  else
    (.ok content.length, overwrite buffer 0 content)

/-- Overwriting within a buffer keeps its size. -/
theorem length_overwrite {buffer content : Bytes} {offset : Nat}
    (fits : offset + content.length ≤ buffer.length) :
    (overwrite buffer offset content).length = buffer.length := by
  simp [overwrite]
  omega

end NearSigner.Buffer
