import NearSigner.Transaction.Basic

/-!
# Encoding of transactions

The canonical encoding of every part of a transaction, in the order in which
the parts are declared.
-/

namespace NearSigner

/-- The encoding of a public key. -/
def PublicKey.encode (key : PublicKey) : Bytes :=
  key.kind.tag :: key.data.toBytes

/-- The encoding of a permission. -/
def Permission.encode (permission : Permission (List String)) : Bytes :=
  permission.kind.tag ::
    match permission with
    | functionCall allowance receiver methods =>
        Borsh.option Borsh.u128 allowance ++ Borsh.text receiver ++
          Borsh.sequence Borsh.text methods
    | fullAccess => []

/-- The encoding of the conditions of a key. -/
def AccessKey.encode (key : AccessKey (List String)) : Bytes :=
  Borsh.u64 key.nonce ++ key.permission.encode

/-- The encoding of a call. -/
def FunctionCall.encode (call : FunctionCall) : Bytes :=
  Borsh.text call.methodName ++ Borsh.byteString call.args ++ Borsh.u64 call.gas ++
    Borsh.u128 call.deposit

/-- The encoding of an action. -/
def Action.encode (action : Action (List String)) : Bytes :=
  action.kind.tag ::
    match action with
    | createAccount => []
    | deployContract code => Borsh.byteString code
    | functionCall call => call.encode
    | transfer deposit => Borsh.u128 deposit
    | stake amount validatorKey => Borsh.u128 amount ++ validatorKey.encode
    | addKey publicKey accessKey => publicKey.encode ++ accessKey.encode
    | deleteKey publicKey => publicKey.encode
    | deleteAccount beneficiary => Borsh.text beneficiary

/-- The encoding of a transaction. -/
def Transaction.encode (transaction : Transaction) : Bytes :=
  Borsh.text transaction.signer ++ transaction.signerKey.encode ++
    Borsh.u64 transaction.nonce ++ Borsh.text transaction.receiver ++
    transaction.blockHash.toBytes ++
    Borsh.sequence Action.encode transaction.actions

end NearSigner
