import NearSigner.Bytes.Basic

/-!
# Hexadecimal text

Two upper-case digits for every octet, the high half first.
-/

namespace NearSigner.Hex

/-- The sixteen digits, by value. -/
def alphabet : Vector Char 16 :=
  #v['0', '1', '2', '3', '4', '5', '6', '7', '8', '9', 'A', 'B', 'C', 'D', 'E', 'F']

/-- The digit of the half octet that `value` leaves modulo sixteen. -/
def digit (value : Nat) : Char :=
  alphabet[value % 16]

/-- The two digits of an octet. -/
def octetDigits (octet : UInt8) : List Char :=
  [digit (octet.toNat / 16), digit octet.toNat]

/-- Hexadecimal text of a byte sequence. -/
def encode (bytes : Bytes) : String :=
  String.ofList (bytes.flatMap octetDigits)

end NearSigner.Hex
