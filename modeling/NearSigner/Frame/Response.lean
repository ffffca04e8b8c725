import NearSigner.Frame.Buffer

/-!
# Responses of the device

The payloads of successful replies: the version of the application, a public
key, or a signature.  Each has a fixed length.
-/

namespace NearSigner

/-- The version of the application. -/
structure Version where
  major : UInt8
  minor : UInt8
  patch : UInt8
deriving DecidableEq, Repr

/-- The octets of a version. -/
def Version.bytes (version : Version) : Bytes :=
  [version.major, version.minor, version.patch]

/-- A response with a payload. -/
inductive Response
  | version (value : Version)
  | publicKey (key : Block 32)
  | signature (value : Block 64)
deriving DecidableEq, Repr

/-- The forms of a response's payload. -/
inductive ResponseKind
  | version
  | publicKey
  | signature
deriving DecidableEq, Repr

namespace Response

/-- The payload of a response. -/
def payload : Response → Bytes
  | version value => value.bytes
  | publicKey key => key.toBytes
  | signature value => value.toBytes

/-- The block at the head of a sequence, when the sequence is long enough. -/
def decodeBlock (n : Nat) (bytes : Bytes) : Except FormatError (Block n) :=
  match Block.ofBytes? n (bytes.take n) with
  | some block => .ok block
  | none => .error .invalidLength

/-- Read a response of a known form at the head of a sequence, with the number
of octets it takes. -/
def decode (kind : ResponseKind) (bytes : Bytes) :
    Except FormatError (Response × Nat) :=
  match kind with
  | .version =>
      match bytes with
      | major :: minor :: patch :: _ =>
          .ok (version { major, minor, patch }, 3)
      | _ => .error .invalidLength
  | .publicKey => (decodeBlock 32 bytes).map fun key => (publicKey key, 32)
  | .signature => (decodeBlock 64 bytes).map fun value => (signature value, 64)

end Response

end NearSigner
