import NearSigner.Proofs.Faults.Reading
import NearSigner.Transaction.Decoding

/-!
# Reading the parts of a transaction does not fault

The parts of a transaction are read one after the other.  The names of methods
are checked first and then taken once more as one slice, from the index of the
first of them to that behind the last, and are read again when they are shown.
-/

namespace NearSigner.Checked.Reader

open Borsh (Cursor)

/-! ## Lists of method names -/

/-- Read a list of names, and take its octets once more. -/
def methodNames : Reader MethodNames := do
  let count ← u32
  let first ← get
  let _ ← repeated text count.toNat
  let last ← get
  let length ← difference last.index first.index
  let (taken, _) ← Computation.run (take length) first
  match taken with
  | .ok encoded => return { count, encoded }
  | .error refusal => throw refusal

theorem methodNames_reads : Reads methodNames MethodNames.reader := by
  apply u32_reads.bind
  intro count buffer lower first firstCursor here
  -- The place of the first name is a lower bound while the names are read, and so the
  -- difference of the two indices is not below zero.
  have behind : Source.At buffer first.index first firstCursor :=
    ⟨here.buffer_eq, Nat.le_refl _, here.inside, here.cursor_eq⟩
  apply MirrorsFrom.get_bind
  apply (repeated_reads text_reads count.toNat buffer first.index first firstCursor behind).bind
  · exact fun _ _ there => there.lower here.above
  intro _ last lastCursor there
  have length_eq : last.index - first.index = lastCursor.position - firstCursor.position := by
    rw [there.cursor_eq, here.cursor_eq]
  rcases take_reads (last.index - first.index) buffer lower first firstCursor here with
    ⟨behindNames, run_eq, _⟩
  apply MirrorsFrom.get_bind
  apply MirrorsFrom.lift_bind (difference_eq_some there.above)
  apply MirrorsFrom.lift_bind run_eq
  have plain_eq : (Borsh.Reader.take (lastCursor.position - firstCursor.position)).runAt
      firstCursor = Plain.run (Borsh.Reader.take _) firstCursor := rfl
  rw [length_eq, plain_eq]
  rcases Plain.run (Borsh.Reader.take _) firstCursor with ⟨refusal | encoded, _⟩
  · exact .throw refusal (there.lower here.above)
  · exact .pure _ (there.lower here.above)

/-- Read up to `count` names, and stop before the first that cannot be read. -/
def namesFrom : Nat → Source → Option (List String)
  | 0, _ => some []
  | count + 1, source => do
      let (read, next) ← Computation.run text source
      match read with
      | .ok name => return name :: (← namesFrom count next)
      | .error _ => return []

theorem namesFrom_eq_some {buffer : Bytes} {lower : Nat} {source : Source} {cursor : Cursor}
    (here : Source.At buffer lower source cursor) (count : Nat) :
    namesFrom count source = some (MethodNames.namesFrom count cursor) := by
  induction count generalizing source cursor with
  | zero => rfl
  | succ count ih =>
      rcases text_reads buffer lower source cursor here with ⟨next, run_eq, there⟩
      have plain_eq : Plain.run Borsh.Reader.text cursor = Borsh.Reader.text.runAt cursor := rfl
      rw [plain_eq] at run_eq there
      rw [namesFrom, run_eq, MethodNames.namesFrom]
      generalize Borsh.Reader.text.runAt cursor = outcome at there
      rcases outcome with ⟨refusal | name, nextCursor⟩
      · rfl
      · change (do return name :: (← namesFrom count next)) = _
        rw [ih there]
        rfl

/-! ## Keys, permissions and actions -/

/-- Read a public key. -/
def publicKey : Reader PublicKey := do
  match KeyKind.ofTag? (← u8) with
  | some kind => return { kind, data := ← block 32 }
  | none => throw .unsupportedKeyType

theorem publicKey_reads : Reads publicKey PublicKey.reader := by
  apply u8_reads.bind
  intro tag
  cases KeyKind.ofTag? tag with
  | some kind => exact (block_reads 32).bind fun _ => .pure _
  | none => exact .throw .unsupportedKeyType

/-- Read a permission. -/
def permission : Reader (Permission MethodNames) := do
  match PermissionKind.ofTag? (← u8) with
  | some .fullAccess => return .fullAccess
  | some .functionCall =>
      let allowance ← option u128
      let receiver ← text
      let methods ← methodNames
      return .functionCall allowance receiver methods
  | none => throw .unknownPermissionType

theorem permission_reads : Reads permission Permission.reader := by
  apply u8_reads.bind
  intro tag
  rcases PermissionKind.ofTag? tag with _ | kind
  · exact .throw .unknownPermissionType
  · cases kind with
    | fullAccess => exact .pure _
    | functionCall =>
        exact (option_reads u128_reads).bind fun _ => text_reads.bind fun _ =>
          methodNames_reads.bind fun _ => .pure _

/-- Read the conditions of a key. -/
def accessKey : Reader (AccessKey MethodNames) := do
  let nonce ← u64
  let permission ← permission
  return { nonce, permission }

theorem accessKey_reads : Reads accessKey AccessKey.reader :=
  u64_reads.bind fun _ => permission_reads.bind fun _ => .pure _

/-- Read a call. -/
def functionCall : Reader FunctionCall := do
  let methodName ← text
  let args ← byteString
  let gas ← u64
  let deposit ← u128
  return { methodName, args, gas, deposit }

theorem functionCall_reads : Reads functionCall FunctionCall.reader :=
  text_reads.bind fun _ => byteString_reads.bind fun _ => u64_reads.bind fun _ =>
    u128_reads.bind fun _ => .pure _

/-- Read what follows the tag of an action. -/
def actionPayload : ActionKind → Reader (Action MethodNames)
  | .createAccount => return .createAccount
  | .deployContract => return .deployContract (← byteString)
  | .functionCall => return .functionCall (← functionCall)
  | .transfer => return .transfer (← u128)
  | .stake => do
      let amount ← u128
      let validatorKey ← publicKey
      return .stake amount validatorKey
  | .addKey => do
      let key ← publicKey
      let conditions ← accessKey
      return .addKey key conditions
  | .deleteKey => return .deleteKey (← publicKey)
  | .deleteAccount => return .deleteAccount (← text)

theorem actionPayload_reads (kind : ActionKind) :
    Reads (actionPayload kind) (Action.payloadReader kind) := by
  cases kind with
  | createAccount => exact .pure _
  | deployContract => exact byteString_reads.bind fun _ => .pure _
  | functionCall => exact functionCall_reads.bind fun _ => .pure _
  | transfer => exact u128_reads.bind fun _ => .pure _
  | stake =>
      exact u128_reads.bind fun _ => publicKey_reads.bind fun _ =>
        .pure _
  | addKey =>
      exact publicKey_reads.bind fun _ => accessKey_reads.bind fun _ =>
        .pure _
  | deleteKey => exact publicKey_reads.bind fun _ => .pure _
  | deleteAccount => exact text_reads.bind fun _ => .pure _

/-- Read an action. -/
def action : Reader (Action MethodNames) := do
  match ActionKind.ofTag? (← u8) with
  | some kind => actionPayload kind
  | none => throw .unknownActionType

theorem action_reads : Reads action Action.reader := by
  apply u8_reads.bind
  intro tag
  cases ActionKind.ofTag? tag with
  | some kind => exact actionPayload_reads kind
  | none => exact .throw .unknownActionType

end NearSigner.Checked.Reader
