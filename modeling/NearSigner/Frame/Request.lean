import NearSigner.Frame.Basic
import NearSigner.Frame.Code
import NearSigner.Path

/-!
# Requests of the host

What a host asks of the device, before it is put into a frame.  A request has
an instruction and a payload; the first parameter of its frame is chosen
separately, because for some instructions it carries a mode.
-/

namespace NearSigner

/-- The length of a hash to be signed. -/
def hashLength : Nat := 32

/-- The length of the payload of a hash signing request. -/
def blindPayloadLength : Nat := Path.wireLength + hashLength

/-- A request of the host. -/
inductive Request
  /-- The version of the application. -/
  | configuration
  /-- The public key of a path. -/
  | publicKey (path : Path)
  /-- The wallet identifier of a path. -/
  | walletId (path : Path)
  /-- A fragment of a path followed by a transaction. -/
  | chunk (data : Bytes)
  /-- A hash to be signed under the key of a path. -/
  | blindSign (path : Path) (hash : Block 32)
deriving DecidableEq, Repr

/-- The forms that the payload of a request takes. -/
inductive RequestKind
  | configuration
  | publicKey
  | walletId
  | chunk
  | blindSign
deriving DecidableEq, Repr

namespace Request

/-- The form of a request's payload. -/
def kind : Request → RequestKind
  | configuration => .configuration
  | publicKey _ => .publicKey
  | walletId _ => .walletId
  | chunk _ => .chunk
  | blindSign _ _ => .blindSign

/-- The instruction of the frame that carries a request. -/
def instruction : Request → Instruction
  | configuration => .getConfiguration
  | publicKey _ => .getPublicKey
  | walletId _ => .getWalletId
  | chunk _ => .sign
  | blindSign _ _ => .sign

/-- The payload of a request. -/
def payload : Request → Bytes
  | configuration => []
  | publicKey path => path.bytes
  | walletId path => path.bytes
  | chunk data => data
  | blindSign path hash => path.bytes ++ hash.toBytes

/-- The header of a request with both parameters zero. -/
def plainHeader (request : Request) : Header where
  cla := Frame.deviceClass
  ins := request.instruction.code
  p1 := 0
  p2 := 0

/-- The frame in which a host sends a request. -/
def frame (request : Request) (p1 : UInt8) : Frame where
  header := { request.plainHeader with p1, p2 := Frame.hostParameter }
  data := request.payload

/-- Write the payload of a request over the front of a buffer.  A path and the
hash behind it are written one after the other, once both fit. -/
def writeTo (request : Request) (buffer : Bytes) : Buffer.Written :=
  match request with
  | blindSign path hash =>
      if buffer.length < blindPayloadLength then
        (.error .invalidLength, buffer)
      else
        match Buffer.write path.bytes buffer with
        | (.ok used, written) =>
            (.ok blindPayloadLength, Buffer.overwrite written used hash.toBytes)
        | failed => failed
  | other => Buffer.write other.payload buffer

/-- A path at the head of a payload, with the number of octets it takes. -/
def decodePath (bytes : Bytes) : Except FormatError (Path × Nat) := do
  let (path, _) ← Path.parse bytes
  return (path, Path.wireLength)

/-- The path and the hash of a payload that consists of nothing else. -/
def decodeBlind (bytes : Bytes) : Except FormatError (Path × Block 32) :=
  if bytes.length = blindPayloadLength then do
    let (path, rest) ← Path.parse bytes
    match Block.ofBytes? hashLength rest with
    | some hash => return (path, hash)
    | none => throw .invalidLength
  else
    .error .invalidLength

/-- Read a payload of a known form, with the number of octets it takes. -/
def decode (kind : RequestKind) (bytes : Bytes) :
    Except FormatError (Request × Nat) :=
  match kind with
  | .configuration => .ok (configuration, 0)
  | .publicKey => (decodePath bytes).map fun (path, used) => (publicKey path, used)
  | .walletId => (decodePath bytes).map fun (path, used) => (walletId path, used)
  | .chunk => .ok (chunk bytes, bytes.length)
  | .blindSign =>
      (decodeBlind bytes).map fun (path, hash) =>
        (blindSign path hash, blindPayloadLength)

end Request

end NearSigner
