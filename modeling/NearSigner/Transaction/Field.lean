import NearSigner.Transaction.Basic
import NearSigner.Transaction.MethodNames

/-!
# Fields of a transaction

A transaction is read as a stream of fields, each of which is available as soon
as it has been read.  An action is one field, together with its place in the
list and the declared length of the list.
-/

namespace NearSigner

/-- A part of a transaction that is read as a whole. -/
inductive Field
  | signer (account : String)
  | signerKey (key : PublicKey)
  | nonce (value : UInt64)
  | receiver (account : String)
  | blockHash (hash : Block 32)
  | actionCount (count : UInt32)
  | action (index count : UInt32) (action : Action MethodNames)
deriving DecidableEq, Repr

/-- The fields of the actions of a list, from a place in it on. -/
def Field.ofActions (count : UInt32) :
    UInt32 → List (Action (List String)) → List Field
  | _, [] => []
  | index, first :: others =>
      .action index count (first.map MethodNames.ofList) ::
        ofActions count (index + 1) others

/-- The fields of a transaction in the order of its encoding. -/
def Transaction.fields (transaction : Transaction) : List Field :=
  let count := UInt32.ofNat transaction.actions.length
  [.signer transaction.signer, .signerKey transaction.signerKey,
    .nonce transaction.nonce, .receiver transaction.receiver,
    .blockHash transaction.blockHash, .actionCount count] ++
    Field.ofActions count 0 transaction.actions

end NearSigner
