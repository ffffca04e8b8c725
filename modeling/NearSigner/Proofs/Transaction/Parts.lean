import NearSigner.Proofs.Codes
import NearSigner.Proofs.Transaction.Names
import NearSigner.Transaction.Decoding
import NearSigner.Transaction.Encoding

/-!
# Exact readers of the parts of a transaction

Each part of a transaction is read exactly from its encoding.  A tag selects the
rest of a part, and only the tag of a kind is accepted in front of the payload
of that kind.
-/

namespace NearSigner

open Borsh

/-! ## Public keys -/

namespace PublicKey

theorem reader_exact : reader.Exact (fun _ => True) encode := by
  intro cursor next key
  rw [reader, Reader.u8_exact.bind_iff, true_and, encode, Cursor.passes_cons_iff]
  constructor
  · rintro ⟨tag, middle, ⟨_, tagPasses⟩, read⟩
    split at read
    · rename_i kind found
      obtain rfl := KeyKind.ofTag?_eq_some_iff.mp found
      rcases (Reader.block_exact 32).bind_iff.mp read with
        ⟨data, last, ⟨_, dataPasses⟩, returned⟩
      rcases Reader.runAt_pure_eq_ok_iff.mp returned with ⟨rfl, rfl⟩
      exact ⟨middle, tagPasses, dataPasses⟩
    · simp at read
  · rintro ⟨middle, tagPasses, dataPasses⟩
    refine ⟨_, middle, ⟨trivial, tagPasses⟩, ?_⟩
    rw [KeyKind.ofTag?_tag]
    exact (Reader.block_exact 32).bind_iff.mpr ⟨_, next, ⟨trivial, dataPasses⟩, by simp⟩

end PublicKey

/-! ## Access keys -/

namespace Permission

/-- A permission whose lengths can all be written. -/
def Fits : Permission (List String) → Prop
  | functionCall _ receiver methods => TextFits receiver ∧ MethodNames.NamesFit methods
  | fullAccess => True

instance : (permission : Permission (List String)) → Decidable permission.Fits
  | functionCall _ receiver methods =>
      inferInstanceAs (Decidable (TextFits receiver ∧ MethodNames.NamesFit methods))
  | fullAccess => inferInstanceAs (Decidable True)

theorem reader_exact : reader.ExactThrough (map MethodNames.ofList) Fits encode := by
  intro cursor next value
  rw [reader, Reader.u8_exact.bind_iff]
  constructor
  · rintro ⟨tag, middle, ⟨_, tagPasses⟩, read⟩
    split at read
    · rename_i found
      obtain rfl := PermissionKind.ofTag?_eq_some_iff.mp found
      rcases Reader.runAt_pure_eq_ok_iff.mp read with ⟨rfl, rfl⟩
      exact ⟨fullAccess, trivial, rfl, tagPasses⟩
    · rename_i found
      obtain rfl := PermissionKind.ofTag?_eq_some_iff.mp found
      simp only [(Reader.option_exact Reader.u128_exact).bind_iff, Reader.text_exact.bind_iff,
        MethodNames.reader_exact.bind_iff, Reader.runAt_pure_eq_ok_iff] at read
      obtain ⟨allowance, first, ⟨_, allowancePasses⟩, receiver, second,
        ⟨receiverFits, receiverPasses⟩, names, third, ⟨namesFit, namesPass⟩, rfl, rfl⟩ := read
      refine ⟨functionCall allowance receiver names, ⟨receiverFits, namesFit⟩, rfl, ?_⟩
      refine Cursor.passes_cons_iff.mpr ⟨middle, tagPasses, ?_⟩
      simp only [Cursor.passes_append_iff]
      exact ⟨second, ⟨first, allowancePasses, receiverPasses⟩, namesPass⟩
    · simp at read
  · rintro ⟨permission, fits, rfl, passes⟩
    rcases Cursor.passes_cons_iff.mp passes with ⟨middle, tagPasses, payloadPasses⟩
    refine ⟨_, middle, ⟨trivial, tagPasses⟩, ?_⟩
    rw [PermissionKind.ofTag?_tag]
    cases permission with
    | fullAccess =>
        exact Reader.runAt_pure_eq_ok_iff.mpr ⟨rfl, Cursor.passes_nil_iff.mp payloadPasses⟩
    | functionCall allowance receiver names =>
        simp only [Cursor.passes_append_iff] at payloadPasses
        obtain ⟨second, ⟨first, allowancePasses, receiverPasses⟩, namesPass⟩ := payloadPasses
        simp only [kind, (Reader.option_exact Reader.u128_exact).bind_iff,
          Reader.text_exact.bind_iff, MethodNames.reader_exact.bind_iff,
          Reader.runAt_pure_eq_ok_iff]
        exact ⟨allowance, first, ⟨fun _ _ => trivial, allowancePasses⟩, receiver, second,
          ⟨fits.1, receiverPasses⟩, names, next, ⟨fits.2, namesPass⟩, rfl, rfl⟩

end Permission

namespace AccessKey

theorem reader_exact :
    reader.ExactThrough (map MethodNames.ofList) (fun key => key.permission.Fits) encode := by
  intro cursor next value
  simp only [reader, Reader.u64_exact.bind_iff, Permission.reader_exact.bind_iff,
    Reader.runAt_pure_eq_ok_iff, encode, Cursor.passes_append_iff]
  constructor
  · rintro ⟨nonce, middle, ⟨_, noncePasses⟩, permission, last, ⟨fits, passes⟩, rfl, rfl⟩
    exact ⟨{ nonce, permission }, fits, rfl, middle, noncePasses, passes⟩
  · rintro ⟨key, fits, rfl, middle, noncePasses, passes⟩
    exact ⟨key.nonce, middle, ⟨trivial, noncePasses⟩, key.permission, next, ⟨fits, passes⟩,
      rfl, rfl⟩

end AccessKey

/-! ## Actions -/

namespace FunctionCall

/-- A call whose lengths can all be written. -/
structure Fits (call : FunctionCall) : Prop where
  methodName : TextFits call.methodName
  args : FitsWord call.args.length

instance (call : FunctionCall) : Decidable call.Fits :=
  decidable_of_iff (TextFits call.methodName ∧ FitsWord call.args.length)
    ⟨fun ⟨methodName, args⟩ => ⟨methodName, args⟩, fun fits => ⟨fits.methodName, fits.args⟩⟩

theorem reader_exact : reader.Exact Fits encode := by
  intro cursor next call
  simp only [reader, Reader.text_exact.bind_iff, Reader.byteString_exact.bind_iff,
    Reader.u64_exact.bind_iff, Reader.u128_exact.bind_iff, Reader.runAt_pure_eq_ok_iff,
    encode, Cursor.passes_append_iff]
  constructor
  · rintro ⟨methodName, first, ⟨nameFits, namePasses⟩, args, second, ⟨argsFit, argsPass⟩,
      gas, third, ⟨_, gasPasses⟩, deposit, last, ⟨_, depositPasses⟩, rfl, rfl⟩
    exact ⟨⟨nameFits, argsFit⟩, third, ⟨second, ⟨first, namePasses, argsPass⟩, gasPasses⟩,
      depositPasses⟩
  · rintro ⟨fits, third, ⟨second, ⟨first, namePasses, argsPass⟩, gasPasses⟩, depositPasses⟩
    exact ⟨call.methodName, first, ⟨fits.methodName, namePasses⟩, call.args, second,
      ⟨fits.args, argsPass⟩, call.gas, third, ⟨trivial, gasPasses⟩, call.deposit, next,
      ⟨trivial, depositPasses⟩, rfl, rfl⟩

end FunctionCall

namespace Action

/-- An action whose lengths can all be written. -/
def Fits : Action (List String) → Prop
  | deployContract code => FitsWord code.length
  | functionCall call => call.Fits
  | addKey _ accessKey => accessKey.permission.Fits
  | deleteAccount beneficiary => TextFits beneficiary
  | createAccount | transfer _ | stake _ _ | deleteKey _ => True

instance : (action : Action (List String)) → Decidable action.Fits
  | deployContract code => inferInstanceAs (Decidable (FitsWord code.length))
  | functionCall call => inferInstanceAs (Decidable call.Fits)
  | addKey _ accessKey => inferInstanceAs (Decidable accessKey.permission.Fits)
  | deleteAccount beneficiary => inferInstanceAs (Decidable (TextFits beneficiary))
  | createAccount | transfer _ | stake _ _ | deleteKey _ => inferInstanceAs (Decidable True)

/-- The encoding of an action without its tag. -/
def payload (action : Action (List String)) : Bytes :=
  action.encode.tail

theorem encode_eq_cons (action : Action (List String)) :
    action.encode = action.kind.tag :: action.payload := by
  cases action <;> rfl

/-- What is read behind the tag of a kind is an action of that kind. -/
theorem exists_of_payloadReader {kind : ActionKind} {cursor next : Cursor}
    {value : Action MethodNames}
    (read : (payloadReader kind).runAt cursor = (.ok value, next)) :
    ∃ action : Action (List String), action.kind = kind ∧ action.Fits ∧
      action.map MethodNames.ofList = value ∧ cursor.Passes action.payload next := by
  cases kind with
  | createAccount =>
      rcases Reader.runAt_pure_eq_ok_iff.mp read with ⟨rfl, rfl⟩
      exact ⟨createAccount, rfl, trivial, rfl, Cursor.passes_nil_iff.mpr rfl⟩
  | deployContract =>
      rcases Reader.byteString_exact.bind_iff.mp read with
        ⟨code, last, ⟨fits, passes⟩, returned⟩
      rcases Reader.runAt_pure_eq_ok_iff.mp returned with ⟨rfl, rfl⟩
      exact ⟨deployContract code, rfl, fits, rfl, passes⟩
  | functionCall =>
      rcases FunctionCall.reader_exact.bind_iff.mp read with
        ⟨call, last, ⟨fits, passes⟩, returned⟩
      rcases Reader.runAt_pure_eq_ok_iff.mp returned with ⟨rfl, rfl⟩
      exact ⟨functionCall call, rfl, fits, rfl, passes⟩
  | transfer =>
      rcases Reader.u128_exact.bind_iff.mp read with ⟨deposit, last, ⟨_, passes⟩, returned⟩
      rcases Reader.runAt_pure_eq_ok_iff.mp returned with ⟨rfl, rfl⟩
      exact ⟨transfer deposit, rfl, trivial, rfl, passes⟩
  | stake =>
      rcases Reader.u128_exact.bind_iff.mp read with
        ⟨amount, middle, ⟨_, amountPasses⟩, read⟩
      rcases PublicKey.reader_exact.bind_iff.mp read with
        ⟨key, last, ⟨_, keyPasses⟩, returned⟩
      rcases Reader.runAt_pure_eq_ok_iff.mp returned with ⟨rfl, rfl⟩
      exact ⟨stake amount key, rfl, trivial, rfl,
        Cursor.passes_append_iff.mpr ⟨middle, amountPasses, keyPasses⟩⟩
  | addKey =>
      rcases PublicKey.reader_exact.bind_iff.mp read with
        ⟨key, middle, ⟨_, keyPasses⟩, read⟩
      rcases AccessKey.reader_exact.bind_iff.mp read with
        ⟨accessKey, last, ⟨fits, passes⟩, returned⟩
      rcases Reader.runAt_pure_eq_ok_iff.mp returned with ⟨rfl, rfl⟩
      exact ⟨addKey key accessKey, rfl, fits, rfl,
        Cursor.passes_append_iff.mpr ⟨middle, keyPasses, passes⟩⟩
  | deleteKey =>
      rcases PublicKey.reader_exact.bind_iff.mp read with ⟨key, last, ⟨_, passes⟩, returned⟩
      rcases Reader.runAt_pure_eq_ok_iff.mp returned with ⟨rfl, rfl⟩
      exact ⟨deleteKey key, rfl, trivial, rfl, passes⟩
  | deleteAccount =>
      rcases Reader.text_exact.bind_iff.mp read with
        ⟨beneficiary, last, ⟨fits, passes⟩, returned⟩
      rcases Reader.runAt_pure_eq_ok_iff.mp returned with ⟨rfl, rfl⟩
      exact ⟨deleteAccount beneficiary, rfl, fits, rfl, passes⟩

/-- Behind the tag of its kind an action is read from the rest of its
encoding. -/
theorem payloadReader_of_passes {action : Action (List String)} {cursor next : Cursor}
    (fits : action.Fits) (passes : cursor.Passes action.payload next) :
    (payloadReader action.kind).runAt cursor =
      (.ok (action.map MethodNames.ofList), next) := by
  cases action with
  | createAccount =>
      exact Reader.runAt_pure_eq_ok_iff.mpr ⟨rfl, Cursor.passes_nil_iff.mp passes⟩
  | deployContract code =>
      exact Reader.byteString_exact.bind_iff.mpr ⟨code, next, ⟨fits, passes⟩, rfl⟩
  | functionCall call =>
      exact FunctionCall.reader_exact.bind_iff.mpr ⟨call, next, ⟨fits, passes⟩, rfl⟩
  | transfer deposit =>
      exact Reader.u128_exact.bind_iff.mpr ⟨deposit, next, ⟨trivial, passes⟩, rfl⟩
  | stake amount key =>
      rcases Cursor.passes_append_iff.mp passes with ⟨middle, amountPasses, keyPasses⟩
      exact Reader.u128_exact.bind_iff.mpr ⟨amount, middle, ⟨trivial, amountPasses⟩,
        PublicKey.reader_exact.bind_iff.mpr ⟨key, next, ⟨trivial, keyPasses⟩, rfl⟩⟩
  | addKey key accessKey =>
      rcases Cursor.passes_append_iff.mp passes with ⟨middle, keyPasses, accessPasses⟩
      exact PublicKey.reader_exact.bind_iff.mpr ⟨key, middle, ⟨trivial, keyPasses⟩,
        AccessKey.reader_exact.bind_iff.mpr ⟨accessKey, next, ⟨fits, accessPasses⟩, rfl⟩⟩
  | deleteKey key =>
      exact PublicKey.reader_exact.bind_iff.mpr ⟨key, next, ⟨trivial, passes⟩, rfl⟩
  | deleteAccount beneficiary =>
      exact Reader.text_exact.bind_iff.mpr ⟨beneficiary, next, ⟨fits, passes⟩, rfl⟩

/-- An action is read exactly from its encoding. -/
theorem reader_exact : reader.ExactThrough (map MethodNames.ofList) Fits encode := by
  intro cursor next value
  rw [reader, Reader.u8_exact.bind_iff]
  constructor
  · rintro ⟨tag, middle, ⟨_, tagPasses⟩, read⟩
    split at read
    · rename_i kind found
      obtain rfl := ActionKind.ofTag?_eq_some_iff.mp found
      rcases exists_of_payloadReader read with ⟨action, rfl, fits, rfl, passes⟩
      have encodingPasses : cursor.Passes action.encode next := by
        rw [encode_eq_cons]
        exact Cursor.passes_cons_iff.mpr ⟨middle, tagPasses, passes⟩
      exact ⟨action, fits, rfl, encodingPasses⟩
    · simp at read
  · rintro ⟨action, fits, rfl, passes⟩
    rw [encode_eq_cons] at passes
    rcases Cursor.passes_cons_iff.mp passes with ⟨middle, tagPasses, payloadPasses⟩
    refine ⟨_, middle, ⟨trivial, tagPasses⟩, ?_⟩
    rw [ActionKind.ofTag?_tag]
    exact payloadReader_of_passes fits payloadPasses

end Action

/-! ## What is kept when readers are put together -/

namespace Borsh.Reader.Law

variable {Holds : (α : Type) → Reader α → Prop} (law : Law Holds)
include law

theorem publicKey : Holds PublicKey PublicKey.reader := by
  apply law.bind law.u8
  intro tag
  split
  · exact law.bind (law.block 32) fun _ => law.pure _
  · exact law.throw rfl

theorem permission : Holds (Permission MethodNames) Permission.reader := by
  apply law.bind law.u8
  intro tag
  split
  · exact law.pure _
  · apply law.bind (law.option law.u128)
    intro allowance
    apply law.bind law.text
    intro receiver
    exact law.bind law.methodNames fun _ => law.pure _
  · exact law.throw rfl

theorem accessKey : Holds (AccessKey MethodNames) AccessKey.reader :=
  law.bind law.u64 fun _ => law.bind law.permission fun _ => law.pure _

theorem functionCall : Holds FunctionCall FunctionCall.reader := by
  apply law.bind law.text
  intro methodName
  apply law.bind law.byteString
  intro args
  exact law.bind law.u64 fun _ => law.bind law.u128 fun _ => law.pure _

theorem actionPayload (kind : ActionKind) :
    Holds (Action MethodNames) (Action.payloadReader kind) := by
  cases kind with
  | createAccount => exact law.pure _
  | deployContract => exact law.bind law.byteString fun _ => law.pure _
  | functionCall => exact law.bind law.functionCall fun _ => law.pure _
  | transfer => exact law.bind law.u128 fun _ => law.pure _
  | stake => exact law.bind law.u128 fun _ => law.bind law.publicKey fun _ => law.pure _
  | addKey => exact law.bind law.publicKey fun _ => law.bind law.accessKey fun _ => law.pure _
  | deleteKey => exact law.bind law.publicKey fun _ => law.pure _
  | deleteAccount => exact law.bind law.text fun _ => law.pure _

theorem action : Holds (Action MethodNames) Action.reader := by
  apply law.bind law.u8
  intro tag
  split
  · exact law.actionPayload _
  · exact law.throw rfl

end Borsh.Reader.Law

end NearSigner
