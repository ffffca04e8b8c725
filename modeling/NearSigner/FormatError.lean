/-!
# Malformed wire data

The reasons for which octets on the wire are not the encoding of what is
expected there, or an encoding does not fit where it is to be written.
-/

namespace NearSigner

/-- Why wire data cannot be read or written. -/
inductive FormatError
  /-- There are too few or too many octets. -/
  | invalidLength
  /-- Text is not UTF-8. -/
  | invalidUtf8
  /-- The encoding belongs to another version of the protocol. -/
  | invalidVersion (version : UInt8)
  /-- The octets denote no value. -/
  | invalidEncoding
deriving DecidableEq, Repr

/-- The wording of each reason. -/
def FormatError.message : FormatError → String
  | .invalidLength => "Invalid buffer length"
  | .invalidUtf8 => "Invalid Utf8 string encoding"
  | .invalidVersion version =>
      "Invalid APDU encoding version " ++ version.toNat.repr
  | .invalidEncoding => "Invalid APDU encoding"

end NearSigner
