import NearSigner.Crypto.Ed25519
import NearSigner.Path
import NearSigner.Refusal
import NearSigner.Review.Approval

/-!
# Keys and signatures of a device

A device derives a secret for every path and has a setting that allows hashes
to be signed as they stand.  Keys are derived only for the paths of accounts,
and a signature is made only after an approval.  A transaction is signed by its
SHA-256 digest.
-/

namespace NearSigner

/-- What the session needs of the device it runs on. -/
structure Device where
  /-- The secret of a path. -/
  secret : Path → Block 32
  /-- Whether hashes may be signed. -/
  blindSigning : Bool

namespace Device

/-- Refuse the paths that are not accounts'. -/
def checkPath (path : Path) : Except Refusal Unit :=
  if path.isAccount then .ok () else .error .pathRejected

/-- The secret of an account. -/
def accountSecret (device : Device) (path : Path) : Except Refusal (Block 32) := do
  checkPath path
  return device.secret path

/-- The public key of an account. -/
def publicKey (device : Device) (path : Path) : Except Refusal (Block 32) := do
  return Ed25519.publicKey (← device.accountSecret path)

/-- The hash under which a transaction is signed. -/
def transactionHash (transaction : Bytes) : Block 32 :=
  Sha2.sha256 transaction

/-- The signature of a hash under the key of an account, once the user has
approved. -/
def sign (device : Device) (path : Path) (approval : Approval) (hash : Block 32) :
    Except Refusal (Block 64) := do
  unless approval.isApproved do
    throw .unapproved
  let secret ← device.accountSecret path
  return Ed25519.sign secret hash.toBytes

end Device

end NearSigner
