import NearSigner.Transaction.Field

/-!
# Decoding of transactions

The decoder hands over every field as soon as it has been read and stops at the
first part that is malformed, so a failure comes with the fields in front of
it.  A transaction has to take up the whole of its octets.
-/

namespace NearSigner

open Borsh

/-! ## Parts of a transaction -/

/-- Read a public key.  Its kind is checked before its data is looked at. -/
def PublicKey.reader : Reader PublicKey := do
  match KeyKind.ofTag? (← Reader.u8) with
  | some kind => return { kind, data := ← Reader.block 32 }
  | none => throw .unsupportedKeyType

/-- Read a permission. -/
def Permission.reader : Reader (Permission MethodNames) := do
  match PermissionKind.ofTag? (← Reader.u8) with
  | some .fullAccess => return .fullAccess
  | some .functionCall =>
      let allowance ← Reader.option Reader.u128
      let receiver ← Reader.text
      let methods ← MethodNames.reader
      return .functionCall allowance receiver methods
  | none => throw .unknownPermissionType

/-- Read the conditions of a key. -/
def AccessKey.reader : Reader (AccessKey MethodNames) := do
  let nonce ← Reader.u64
  let permission ← Permission.reader
  return { nonce, permission }

/-- Read a call. -/
def FunctionCall.reader : Reader FunctionCall := do
  let methodName ← Reader.text
  let args ← Reader.byteString
  let gas ← Reader.u64
  let deposit ← Reader.u128
  return { methodName, args, gas, deposit }

/-- Read what follows the tag of an action. -/
def Action.payloadReader : ActionKind → Reader (Action MethodNames)
  | .createAccount => return .createAccount
  | .deployContract => return .deployContract (← Reader.byteString)
  | .functionCall => return .functionCall (← FunctionCall.reader)
  | .transfer => return .transfer (← Reader.u128)
  | .stake => do
      let amount ← Reader.u128
      let validatorKey ← PublicKey.reader
      return .stake amount validatorKey
  | .addKey => do
      let publicKey ← PublicKey.reader
      let accessKey ← AccessKey.reader
      return .addKey publicKey accessKey
  | .deleteKey => return .deleteKey (← PublicKey.reader)
  | .deleteAccount => return .deleteAccount (← Reader.text)

/-- Read an action. -/
def Action.reader : Reader (Action MethodNames) := do
  match ActionKind.ofTag? (← Reader.u8) with
  | some kind => payloadReader kind
  | none => throw .unknownActionType

/-! ## The stream of fields -/

/-- How far a decoder has come: where it reads, and the fields it has handed
over. -/
structure Progress where
  cursor : Cursor
  visited : List Field
deriving DecidableEq, Repr

/-- A computation that reads and hands over fields. -/
abbrev Decoder (α : Type) := ExceptT Refusal (StateM Progress) α

namespace Decoder

/-- Read a part of the transaction. -/
def read {α : Type} (reader : Reader α) : Decoder α := fun progress =>
  let (result, cursor) := reader.runAt progress.cursor
  (result, { progress with cursor })

/-- Hand over a field. -/
def visit (field : Field) : Decoder Unit :=
  modify fun progress => { progress with visited := progress.visited ++ [field] }

/-- Read and hand over `remaining` actions, the first of which is at `index` of
`count`. -/
def actions (count : UInt32) : (index : UInt32) → (remaining : Nat) → Decoder Unit
  | _, 0 => pure ()
  | index, remaining + 1 => do
      visit (.action index count (← read Action.reader))
      actions count (index + 1) remaining

/-- Read and hand over a transaction that nothing follows. -/
def transaction : Decoder Unit := do
  visit (.signer (← read Reader.text))
  visit (.signerKey (← read PublicKey.reader))
  visit (.nonce (← read Reader.u64))
  visit (.receiver (← read Reader.text))
  visit (.blockHash (← read (Reader.block 32)))
  let count ← read Reader.u32
  visit (.actionCount count)
  actions count 0 count.toNat
  unless (← get).cursor.atEnd do
    throw .trailingData

end Decoder

/-- The outcome of decoding: the fields that were handed over, and whether the
octets are a transaction. -/
structure Decoded where
  fields : List Field
  result : Except Refusal Unit

/-- Decode a whole sequence of octets as a transaction. -/
def Transaction.decode (bytes : Bytes) : Decoded :=
  let (result, progress) := StateT.run (ExceptT.run Decoder.transaction)
    { cursor := Cursor.start bytes, visited := [] }
  { fields := progress.visited, result }

end NearSigner
