import NearSigner.Bytes.Words
import NearSigner.FormatError

/-!
# Status words

Every reply ends with a word of sixteen bits that says whether the command was
carried out and, if not, to which class the reason belongs.  The word is sent
most significant octet first.
-/

namespace NearSigner

/-- The outcome of a command, as reported to the host. -/
inductive Status
  /-- The command was carried out. -/
  | success
  /-- The user rejected the request. -/
  | userRejected
  /-- Signing of hashes is switched off in the settings. -/
  | blindSigningDisabled
  /-- The data of a hash signing request is not a path and a hash. -/
  | blindPayloadWrongLength
  /-- The message is longer than the device can hold. -/
  | bufferOverflow
  /-- The data of the command is malformed. -/
  | parsingError
  /-- The command does not fit the state of the session. -/
  | commandNotAllowed
  /-- The path is not an account's, or there was no approval. -/
  | securityStatusNotSatisfied
  /-- The frame is not as long as it declares. -/
  | wrongDataLength
  /-- A parameter of the frame has no meaning. -/
  | incorrectParameters
  /-- The instruction of the frame is unknown. -/
  | instructionNotSupported
  /-- The class of the frame is unknown. -/
  | classNotSupported
  /-- The device failed to build its reply. -/
  | internal
deriving DecidableEq, Repr

namespace Status

/-- Every status. -/
def all : List Status :=
  [.success, .userRejected, .blindSigningDisabled, .blindPayloadWrongLength,
    .bufferOverflow, .parsingError, .commandNotAllowed, .securityStatusNotSatisfied,
    .wrongDataLength, .incorrectParameters, .instructionNotSupported,
    .classNotSupported, .internal]

/-- The status word of a status. -/
def code : Status → UInt16
  | .success => 0x9000
  | .userRejected => 0x6985
  | .blindSigningDisabled => 0x6192
  | .blindPayloadWrongLength => 0x6191
  | .bufferOverflow => 0x6990
  | .parsingError => 0x6991
  | .commandNotAllowed => 0x6986
  | .securityStatusNotSatisfied => 0x6982
  | .wrongDataLength => 0x6A87
  | .incorrectParameters => 0x6A86
  | .instructionNotSupported => 0x6D00
  | .classNotSupported => 0x6E00
  | .internal => 0x6F00

/-- The name of a status. -/
def name : Status → String
  | .success => "Ok"
  | .userRejected => "UserRejected"
  | .blindSigningDisabled => "BlindSigningDisabled"
  | .blindPayloadWrongLength => "BlindPayloadWrongLength"
  | .bufferOverflow => "BufferOverflow"
  | .parsingError => "ParsingError"
  | .commandNotAllowed => "CommandNotAllowed"
  | .securityStatusNotSatisfied => "SecurityStatusNotSatisfied"
  | .wrongDataLength => "WrongDataLength"
  | .incorrectParameters => "IncorrectP1P2"
  | .instructionNotSupported => "InsNotSupported"
  | .classNotSupported => "ClaNotSupported"
  | .internal => "Internal"

/-- Whether a status reports success. -/
def isSuccess (status : Status) : Bool :=
  status == .success

/-- The status with a status word. -/
def ofCode? (code : UInt16) : Option Status :=
  all.find? (·.code == code)

@[simp]
theorem ofCode?_code (status : Status) : ofCode? status.code = some status := by
  cases status <;> rfl

/-- The wire form of a status. -/
def bytes (status : Status) : Bytes :=
  Bytes.bigEndian 2 status.code.toNat

/-- The status at the head of a sequence, with the number of octets it takes. -/
def decode : Bytes → Except FormatError (Status × Nat)
  | high :: low :: _ =>
      match ofCode? (UInt16.ofNat (Bytes.toNatBE [high, low])) with
      | some status => .ok (status, 2)
      | none => .error .invalidEncoding
  | _ => .error .invalidLength

end Status

end NearSigner
