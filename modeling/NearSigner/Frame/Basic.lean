import NearSigner.Frame.Buffer

/-!
# Command frames

A frame carries a header of four octets, one octet that counts its data, and
the data.  A frame is read only if that count is exact, so a frame has one
written form and nothing may precede or follow it.
-/

namespace NearSigner

/-- The header of a command frame: class, instruction and two parameters. -/
structure Header where
  cla : UInt8
  ins : UInt8
  p1 : UInt8
  p2 : UInt8
deriving DecidableEq, Repr

/-- The octets of a header. -/
def Header.bytes (header : Header) : Bytes :=
  [header.cla, header.ins, header.p1, header.p2]

/-- A command frame. -/
structure Frame where
  header : Header
  data : Bytes
deriving DecidableEq, Repr

namespace Frame

/-- The class of every command of the device. -/
def deviceClass : UInt8 := 0x80

/-- The second parameter that hosts send with every command. -/
def hostParameter : UInt8 := 0x57

/-- The number of octets in front of the data. -/
def headerLength : Nat := 5

/-- The greatest number of octets that the count of a frame can express. -/
def maxData : Nat := 255

/-- The length of the wire form of a frame. -/
def wireLength (frame : Frame) : Nat :=
  headerLength + frame.data.length

/-- The wire form of a frame.  The count is exact for at most `maxData` octets
of data. -/
def bytes (frame : Frame) : Bytes :=
  frame.header.bytes ++ UInt8.ofNat frame.data.length :: frame.data

/-- Write a frame over the front of a buffer, when its data can be counted and
the whole of it fits. -/
def writeTo (frame : Frame) (buffer : Bytes) : Buffer.Written :=
  if maxData < frame.data.length ∨ buffer.length < frame.wireLength then
    (.error .invalidLength, buffer)
  else
    let headed := Buffer.overwrite buffer 0
      (frame.header.bytes ++ [UInt8.ofNat frame.data.length])
    (.ok frame.wireLength, Buffer.overwrite headed headerLength frame.data)

/-- Read a whole sequence as one frame, with the number of octets it takes. -/
def decode (bytes : Bytes) : Except FormatError (Frame × Nat) :=
  match bytes with
  | cla :: ins :: p1 :: p2 :: count :: data =>
      if data.length = count.toNat then
        .ok ({ header := { cla, ins, p1, p2 }, data }, bytes.length)
      else
        .error .invalidLength
  | _ => .error .invalidLength

end Frame

end NearSigner
