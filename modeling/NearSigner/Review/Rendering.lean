import NearSigner.Crypto.Sha2
import NearSigner.Review.Plan
import NearSigner.Transaction.Decoding

/-!
# The plan of a transaction

Every field of a transaction that bears on its effects is shown: the accounts,
the number of actions unless it is one, and for each action a heading and what
it does.  Amounts and nonces are exact decimal numbers.  A contract is shown by
its size and the digest of its code.
-/

namespace NearSigner

/-- A number as it is shown. -/
def decimal (value : Nat) : String :=
  value.repr

/-- The arguments of a call as they are shown: as text if they are the text of
an object in braces, and otherwise in hexadecimal. -/
def argsText (args : Bytes) : String :=
  match Bytes.toText? args with
  | some text =>
      if text.toList.head? = some '\x7b' then text else Hex.encode args
  | none => Hex.encode args

/-- The names of the methods to which a key is restricted, as they are shown. -/
def MethodNames.shown (methods : MethodNames) : String :=
  if methods.isEmpty then
    "Any"
  else
    String.intercalate ", " methods.names

/-- The entries that show a permission. -/
def Permission.contents : Permission MethodNames → List (String × String)
  | fullAccess =>
      [("Permission", "Full access"),
        ("Danger", "This gives full access to a device other than Ledger")]
  | functionCall allowance receiver methods =>
      [("Permission", "Function call"),
        ("Allowance (yoctoNEAR)",
          match allowance with
          | some amount => decimal amount.toNat
          | none => "Unlimited"),
        ("Contract", receiver),
        ("Methods", methods.shown)]

/-- The entries that show what an action does. -/
def Action.contents : Action MethodNames → List (String × String)
  | createAccount => []
  | deployContract code =>
      [("Code size", decimal code.length ++ " bytes"),
        ("Code hash", Base58.encode (Sha2.sha256 code).toBytes)]
  | functionCall call =>
      [("Method", call.methodName),
        ("Args", argsText call.args),
        ("Gas", decimal call.gas.toNat),
        ("Deposit (yoctoNEAR)", decimal call.deposit.toNat)]
  | transfer deposit => [("Amount (yoctoNEAR)", decimal deposit.toNat)]
  | stake amount validatorKey =>
      [("Stake (yoctoNEAR)", decimal amount.toNat),
        ("Validator key", validatorKey.text)]
  | addKey publicKey accessKey =>
      ("Public key", publicKey.text) ::
        ("Key nonce", decimal accessKey.nonce.toNat) ::
        accessKey.permission.contents
  | deleteKey publicKey => [("Public key", publicKey.text)]
  | deleteAccount beneficiary => [("Beneficiary", beneficiary)]

/-- The label of the heading of an action: its number among several. -/
def actionLabel (index count : UInt32) : String :=
  if count = 1 then
    "Action"
  else
    "Action " ++ decimal (index + 1).toNat ++ "/" ++ decimal count.toNat

/-- The entries that show a field.  The signing key, the nonce and the block
hash have no bearing on the effects of a transaction. -/
def Field.contents : Field → List (String × String)
  | signer account => [("From", account)]
  | receiver account => [("To", account)]
  | actionCount count =>
      if count = 1 then [] else [("Actions", decimal count.toNat)]
  | action index count effect =>
      (actionLabel index count, effect.kind.name) :: effect.contents
  | signerKey _ | nonce _ | blockHash _ => []

/-- The plan that shows a list of fields. -/
def Plan.ofFields (fields : List Field) : Plan :=
  Plan.ofList (fields.flatMap Field.contents)

/-- The plan of the fields that the octets of a transaction hold. -/
def Decoded.plan (decoded : Decoded) : Plan :=
  Plan.ofFields decoded.fields

end NearSigner
