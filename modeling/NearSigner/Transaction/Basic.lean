import NearSigner.Borsh.Encoding
import NearSigner.Bytes.Base58

/-!
# Transactions

A transaction names the account that signs it, the account it acts upon, and a
list of actions.  Amounts are counted in the smallest unit of the currency and
take up to 128 bits.  The names of the methods to which an access key is
restricted are held in different ways while a transaction is read and after it
has been read, so the type of that list is a parameter.
-/

namespace NearSigner

/-- An amount in the smallest unit of the currency. -/
abbrev Amount := Borsh.UInt128

/-- The kinds of public keys. -/
inductive KeyKind
  | ed25519
deriving DecidableEq, Repr

namespace KeyKind

/-- Every kind. -/
def all : List KeyKind :=
  [.ed25519]

/-- The tag of a kind. -/
def tag : KeyKind → UInt8
  | ed25519 => 0

/-- The name of a kind. -/
def name : KeyKind → String
  | ed25519 => "ed25519"

/-- The kind with a tag. -/
def ofTag? (tag : UInt8) : Option KeyKind :=
  all.find? (·.tag == tag)

@[simp]
theorem ofTag?_tag (kind : KeyKind) : ofTag? kind.tag = some kind := by
  cases kind; rfl

end KeyKind

/-- A public key of a known kind. -/
structure PublicKey where
  kind : KeyKind
  data : Block 32
deriving DecidableEq, Repr

/-- A public key as text. -/
def PublicKey.text (key : PublicKey) : String :=
  key.kind.name ++ ":" ++ Base58.encode key.data.toBytes

/-- The call of a method of a contract. -/
structure FunctionCall where
  methodName : String
  args : Bytes
  gas : UInt64
  deposit : Amount
deriving DecidableEq, Repr

/-- The kinds of permissions. -/
inductive PermissionKind
  | functionCall
  | fullAccess
deriving DecidableEq, Repr

namespace PermissionKind

/-- Every kind. -/
def all : List PermissionKind :=
  [.functionCall, .fullAccess]

/-- The tag of a kind. -/
def tag : PermissionKind → UInt8
  | functionCall => 0
  | fullAccess => 1

/-- The name of a kind. -/
def name : PermissionKind → String
  | functionCall => "FunctionCall"
  | fullAccess => "FullAccess"

/-- The kind with a tag. -/
def ofTag? (tag : UInt8) : Option PermissionKind :=
  all.find? (·.tag == tag)

@[simp]
theorem ofTag?_tag (kind : PermissionKind) : ofTag? kind.tag = some kind := by
  cases kind <;> rfl

end PermissionKind

/-- What an access key may be used for. -/
inductive Permission (Names : Type)
  /-- To call methods of one contract, all of them or those that are named, and
  to spend at most an allowance on it, if there is one. -/
  | functionCall (allowance : Option Amount) (receiver : String) (methods : Names)
  /-- To do everything. -/
  | fullAccess
deriving DecidableEq, Repr

namespace Permission

variable {Names Other : Type}

/-- The kind of a permission. -/
def kind : Permission Names → PermissionKind
  | functionCall _ _ _ => .functionCall
  | fullAccess => .fullAccess

/-- Change how the names of methods are held. -/
def map (change : Names → Other) : Permission Names → Permission Other
  | functionCall allowance receiver methods =>
      functionCall allowance receiver (change methods)
  | fullAccess => fullAccess

end Permission

/-- The conditions under which an added key may be used. -/
structure AccessKey (Names : Type) where
  nonce : UInt64
  permission : Permission Names
deriving DecidableEq, Repr

/-- Change how the names of methods are held. -/
def AccessKey.map {Names Other : Type} (change : Names → Other)
    (key : AccessKey Names) : AccessKey Other where
  nonce := key.nonce
  permission := key.permission.map change

/-- The kinds of actions. -/
inductive ActionKind
  | createAccount
  | deployContract
  | functionCall
  | transfer
  | stake
  | addKey
  | deleteKey
  | deleteAccount
deriving DecidableEq, Repr

namespace ActionKind

/-- Every kind. -/
def all : List ActionKind :=
  [.createAccount, .deployContract, .functionCall, .transfer, .stake, .addKey,
    .deleteKey, .deleteAccount]

/-- The tag of a kind. -/
def tag : ActionKind → UInt8
  | createAccount => 0
  | deployContract => 1
  | functionCall => 2
  | transfer => 3
  | stake => 4
  | addKey => 5
  | deleteKey => 6
  | deleteAccount => 7

/-- The name of a kind, as it is shown. -/
def name : ActionKind → String
  | createAccount => "Create Account"
  | deployContract => "Deploy Contract"
  | functionCall => "Function Call"
  | transfer => "Transfer"
  | stake => "Stake"
  | addKey => "Add Key"
  | deleteKey => "Delete Key"
  | deleteAccount => "Delete Account"

/-- The kind with a tag. -/
def ofTag? (tag : UInt8) : Option ActionKind :=
  all.find? (·.tag == tag)

@[simp]
theorem ofTag?_tag (kind : ActionKind) : ofTag? kind.tag = some kind := by
  cases kind <;> rfl

end ActionKind

/-- One effect of a transaction. -/
inductive Action (Names : Type)
  | createAccount
  | deployContract (code : Bytes)
  | functionCall (call : FunctionCall)
  | transfer (deposit : Amount)
  | stake (amount : Amount) (validatorKey : PublicKey)
  | addKey (publicKey : PublicKey) (accessKey : AccessKey Names)
  | deleteKey (publicKey : PublicKey)
  | deleteAccount (beneficiary : String)
deriving DecidableEq, Repr

namespace Action

variable {Names Other : Type}

/-- The kind of an action. -/
def kind : Action Names → ActionKind
  | createAccount => .createAccount
  | deployContract _ => .deployContract
  | functionCall _ => .functionCall
  | transfer _ => .transfer
  | stake _ _ => .stake
  | addKey _ _ => .addKey
  | deleteKey _ => .deleteKey
  | deleteAccount _ => .deleteAccount

/-- Change how the names of methods are held. -/
def map (change : Names → Other) : Action Names → Action Other
  | createAccount => createAccount
  | deployContract code => deployContract code
  | functionCall call => functionCall call
  | transfer deposit => transfer deposit
  | stake amount validatorKey => stake amount validatorKey
  | addKey publicKey accessKey => addKey publicKey (accessKey.map change)
  | deleteKey publicKey => deleteKey publicKey
  | deleteAccount beneficiary => deleteAccount beneficiary

end Action

/-- A transaction with everything that its signature covers. -/
structure Transaction where
  signer : String
  signerKey : PublicKey
  nonce : UInt64
  receiver : String
  blockHash : Block 32
  actions : List (Action (List String))
deriving DecidableEq, Repr

end NearSigner
