import NearSigner.Bytes.Words

/-!
# Base-58 text

Keys and hashes are shown to people in base 58, with an alphabet that leaves
out the characters that are easily mistaken for one another.  The octets are
read as one number, most significant first, and its digits follow one `1` for
every leading zero octet, which the number itself does not remember.
-/

namespace NearSigner.Base58

/-- The fifty-eight digits, by value. -/
def alphabet : Vector Char 58 :=
  #v['1', '2', '3', '4', '5', '6', '7', '8', '9',
    'A', 'B', 'C', 'D', 'E', 'F', 'G', 'H', 'J', 'K', 'L', 'M', 'N', 'P', 'Q',
    'R', 'S', 'T', 'U', 'V', 'W', 'X', 'Y', 'Z',
    'a', 'b', 'c', 'd', 'e', 'f', 'g', 'h', 'i', 'j', 'k', 'm', 'n', 'o', 'p',
    'q', 'r', 's', 't', 'u', 'v', 'w', 'x', 'y', 'z']

/-- The digits of a number, least significant first.  Zero has none, so the
last digit of the list is never zero. -/
def digits (value : Nat) : List (Fin 58) :=
  if value = 0 then
    []
  else
    ⟨value % 58, Nat.mod_lt _ (by decide)⟩ :: digits (value / 58)
termination_by value

/-- The number of zero octets in front of the first other octet. -/
def leadingZeros (bytes : Bytes) : Nat :=
  (bytes.takeWhile (· == 0)).length

/-- The characters of the base-58 text of a byte sequence. -/
def encodeChars (bytes : Bytes) : List Char :=
  List.replicate (leadingZeros bytes) '1' ++
    (digits (Bytes.toNatBE bytes)).reverse.map fun digit => alphabet[digit]

/-- Base-58 text of a byte sequence. -/
def encode (bytes : Bytes) : String :=
  String.ofList (encodeChars bytes)

end NearSigner.Base58
