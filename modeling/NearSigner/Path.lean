import NearSigner.Bytes.Words
import NearSigner.FormatError

/-!
# Derivation paths

A key of the wallet is named by a path of five numbered components.  The top
bit of a component says that its derivation is hardened, and the other 31 bits
are its index.  On the wire a path is twenty octets, every component most
significant octet first; in text it is `m` followed by the indices, with a
quote after each hardened one.

Only paths whose first two components are the hardened indices 44 and 397
belong to accounts of the wallet.
-/

namespace NearSigner

/-- The five components of a path, hardening bits included. -/
structure Path where
  purpose : UInt32
  coinType : UInt32
  account : UInt32
  change : UInt32
  address : UInt32
deriving DecidableEq, Repr

namespace Path

/-- The hardening bit of a component. -/
def hardenedBit : UInt32 := 0x80000000

/-- The index of the first component of every account. -/
def accountPurpose : UInt32 := 44

/-- The index of the second component of every account. -/
def accountCoinType : UInt32 := 397

/-- The number of components of a path. -/
def componentCount : Nat := 5

/-- The length of the wire form of a path. -/
def wireLength : Nat := componentCount * 4

/-- Whether the derivation of a component is hardened. -/
def isHardened (component : UInt32) : Bool :=
  component &&& hardenedBit != 0

/-- The index of a component, without its hardening bit. -/
def index (component : UInt32) : UInt32 :=
  component &&& ~~~hardenedBit

/-- The components in order. -/
def components (path : Path) : List UInt32 :=
  [path.purpose, path.coinType, path.account, path.change, path.address]

/-- The path with the given components, when there are five. -/
def ofComponents? : List UInt32 → Option Path
  | [purpose, coinType, account, change, address] =>
      some { purpose, coinType, account, change, address }
  | _ => none

@[simp]
theorem ofComponents?_components (path : Path) :
    ofComponents? path.components = some path :=
  rfl

/-- The path of the account with the given number. -/
def ofAccount (number : UInt32) : Path where
  purpose := accountPurpose ||| hardenedBit
  coinType := accountCoinType ||| hardenedBit
  account := hardenedBit
  change := hardenedBit
  address := number ||| hardenedBit

/-- Whether a component is the hardened form of an index. -/
def isHardenedIndex (component expected : UInt32) : Bool :=
  isHardened component && index component == expected

/-- Whether a path belongs to the accounts of the wallet. -/
def isAccount (path : Path) : Bool :=
  isHardenedIndex path.purpose accountPurpose &&
    isHardenedIndex path.coinType accountCoinType

/-- The text of one component, without the separator. -/
def componentText (component : UInt32) : String :=
  (index component).toNat.repr ++ if isHardened component then "'" else ""

/-- The path as people write it. -/
def text (path : Path) : String :=
  path.components.foldl (fun written component =>
    written ++ "/" ++ componentText component) "m"

/-! ## Wire form -/

/-- The wire form of one component. -/
def componentBytes (component : UInt32) : Bytes :=
  Bytes.bigEndian 4 component.toNat

/-- The wire form of a path. -/
def bytes (path : Path) : Bytes :=
  path.components.flatMap componentBytes

@[simp]
theorem length_bytes (path : Path) : path.bytes.length = wireLength := by
  simp [bytes, components, componentBytes, wireLength, componentCount]

/-- The component whose wire form starts `offset` octets into a sequence. -/
def componentAt (bytes : Bytes) (offset : Nat) : UInt32 :=
  UInt32.ofNat (Bytes.toNatBE ((bytes.drop offset).take 4))

/-- The path at the head of a sequence and the octets that follow it.  Any path
is accepted, but the sequence has to be long enough to hold one. -/
def parse (bytes : Bytes) : Except FormatError (Path × Bytes) :=
  if bytes.length < wireLength then
    .error .invalidLength
  else
    .ok
      ({ purpose := componentAt bytes 0
         coinType := componentAt bytes 4
         account := componentAt bytes 8
         change := componentAt bytes 12
         address := componentAt bytes 16 },
        bytes.drop wireLength)

end Path

end NearSigner
