import NearSigner.FormatError
import NearSigner.Frame.Status

/-!
# Refusals

The device refuses a command for one of a fixed list of causes.  Each cause has
a number, a wording, and the status with which it is reported to the host;
several causes share a status, so that a host learns that its data is malformed
but not where.
-/

namespace NearSigner

/-- Why a command is refused. -/
inductive Refusal
  /-- A fragment arrives where none, or another one, is expected. -/
  | outOfSequence
  /-- The fragments of a message are longer than the device can hold. -/
  | oversizedMessage
  /-- The data ends before the value being read. -/
  | truncatedInput
  /-- A text or an option is not encoded as one. -/
  | invalidEncoding
  /-- An action has an unknown tag. -/
  | unknownActionType
  /-- A permission has an unknown tag. -/
  | unknownPermissionType
  /-- A public key is of an unknown kind. -/
  | unsupportedKeyType
  /-- Data remains behind the value that was read. -/
  | trailingData
  /-- Signing of hashes is switched off in the settings. -/
  | blindSigningDisabled
  /-- The data of a hash signing request is not a path and a hash. -/
  | invalidBlindPayloadLength
  /-- The user rejected the request. -/
  | userRejected
  /-- A signature was asked for without an approval. -/
  | unapproved
  /-- The path is not an account's. -/
  | pathRejected
  /-- A review is in progress. -/
  | busy
  /-- A command arrives that the session does not expect. -/
  | unexpectedCommand
  /-- A parameter of the frame has no meaning. -/
  | incorrectParameters
  /-- The instruction of the frame is unknown. -/
  | unsupportedInstruction
  /-- The class of the frame is unknown. -/
  | unsupportedClass
  /-- The frame is not as long as it declares. -/
  | wrongDataLength
  /-- The response does not fit where it is to be written. -/
  | encodingFailed
deriving DecidableEq, Repr

namespace Refusal

/-- The number of a cause. -/
def code : Refusal → UInt8
  | outOfSequence => 0x00
  | oversizedMessage => 0x01
  | truncatedInput => 0x02
  | invalidEncoding => 0x03
  | unknownActionType => 0x04
  | unknownPermissionType => 0x05
  | unsupportedKeyType => 0x06
  | trailingData => 0x07
  | blindSigningDisabled => 0x10
  | invalidBlindPayloadLength => 0x11
  | userRejected => 0x20
  | unapproved => 0x21
  | pathRejected => 0x22
  | busy => 0x23
  | unexpectedCommand => 0x30
  | incorrectParameters => 0x31
  | unsupportedInstruction => 0x32
  | unsupportedClass => 0x33
  | wrongDataLength => 0x34
  | encodingFailed => 0x35

/-- The wording of a cause. -/
def message : Refusal → String
  | outOfSequence => "fragment out of sequence"
  | oversizedMessage => "message exceeds buffer capacity"
  | truncatedInput => "truncated input"
  | invalidEncoding => "invalid encoding"
  | unknownActionType => "unknown action type"
  | unknownPermissionType => "unknown permission type"
  | unsupportedKeyType => "unsupported key type"
  | trailingData => "trailing data"
  | blindSigningDisabled => "blind signing disabled"
  | invalidBlindPayloadLength => "invalid blind signing payload length"
  | userRejected => "rejected by user"
  | unapproved => "signing without approval"
  | pathRejected => "derivation path rejected"
  | busy => "review pending"
  | unexpectedCommand => "unexpected event"
  | incorrectParameters => "incorrect P1 / P2"
  | unsupportedInstruction => "unsupported instruction"
  | unsupportedClass => "unsupported class"
  | wrongDataLength => "wrong data length"
  | encodingFailed => "response encoding failed"

/-- Whether the data of the command is malformed. -/
def isMalformed : Refusal → Bool
  | truncatedInput | invalidEncoding | unknownActionType | unknownPermissionType
  | unsupportedKeyType | trailingData => true
  | _ => false

/-- The status with which a cause is reported. -/
def status : Refusal → Status
  | truncatedInput | invalidEncoding | unknownActionType | unknownPermissionType
  | unsupportedKeyType | trailingData => .parsingError
  | oversizedMessage => .bufferOverflow
  | outOfSequence | busy | unexpectedCommand => .commandNotAllowed
  | blindSigningDisabled => .blindSigningDisabled
  | invalidBlindPayloadLength => .blindPayloadWrongLength
  | userRejected => .userRejected
  | unapproved | pathRejected => .securityStatusNotSatisfied
  | incorrectParameters => .incorrectParameters
  | unsupportedInstruction => .instructionNotSupported
  | unsupportedClass => .classNotSupported
  | wrongDataLength => .wrongDataLength
  | encodingFailed => .internal

/-- The cause to which malformed wire data gives rise within a command. -/
def ofFormatError : FormatError → Refusal
  | .invalidLength => truncatedInput
  | _ => invalidEncoding

/-- Malformed data is reported by one status, and nothing else is. -/
theorem status_eq_parsingError_iff (refusal : Refusal) :
    refusal.status = .parsingError ↔ refusal.isMalformed = true := by
  cases refusal <;> simp [status, isMalformed]

/-- No refusal is reported as success. -/
theorem status_ne_success (refusal : Refusal) : refusal.status ≠ .success := by
  cases refusal <;> simp [status]

end Refusal

end NearSigner
