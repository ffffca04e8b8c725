import NearSigner.Proofs.Bytes.Texts
import NearSigner.Proofs.Faults.Decoding
import NearSigner.Proofs.Frame.Request
import NearSigner.Proofs.Transaction.Exact
import NearSigner.Review.Rendering

/-!
# Showing a transaction does not fault

Every field of a transaction is shown as soon as it has been read.  The text of
a key is written into a buffer of fixed size, which is large enough for every
key; the number of an action is a word, because it is at most the declared
number of actions; and the names of methods can be read again.
-/

namespace NearSigner.Checked

/-! ## Texts -/

/-- The size of the buffer into which the base-58 text of a key is written. -/
def keyBufferSize : Nat := 64

/-- The text of a public key, whose base-58 part is written into a buffer and
taken from there. -/
def keyText (key : PublicKey) : Option String :=
  match Buffer.write (Bytes.ofText (Base58.encode key.data.toBytes))
      (List.replicate keyBufferSize 0) with
  | (.ok count, buffer) => do
      let written ← sliceTo buffer count
      let shown ← Bytes.toText? written
      return key.kind.name ++ ":" ++ shown
  | (.error _, _) => none

/-- The base-58 text of every key fits its buffer. -/
theorem keyText_eq_some (key : PublicKey) : keyText key = some key.text := by
  have fits : (Bytes.ofText (Base58.encode key.data.toBytes)).length ≤
      (List.replicate keyBufferSize (0 : UInt8)).length := by
    have bound := Base58.length_ofText_encode_le key.data.toBytes
    rw [Vector.length_toList] at bound
    rw [List.length_replicate]
    exact bound
  have inside : (Bytes.ofText (Base58.encode key.data.toBytes)).length ≤
      (Bytes.ofText (Base58.encode key.data.toBytes) ++
        (List.replicate keyBufferSize (0 : UInt8)).drop
          (Bytes.ofText (Base58.encode key.data.toBytes)).length).length := by
    rw [List.length_append]
    exact Nat.le_add_right _ _
  simp only [keyText, Buffer.write_of_fits fits, sliceTo_eq_some inside, List.take_left',
    Option.bind_eq_bind, Option.bind_some, Bytes.toText?_ofText]
  rfl

/-- The names of methods as they are shown. -/
def methodsShown (methods : MethodNames) : Option String :=
  if methods.isEmpty then
    some "Any"
  else do
    let names ← Reader.namesFrom methods.count.toNat (Source.start methods.encoded)
    return String.intercalate ", " names

theorem methodsShown_eq_some (methods : MethodNames) :
    methodsShown methods = some methods.shown := by
  rw [methodsShown, MethodNames.shown, Reader.namesFrom_eq_some (Source.At.start _)]
  split <;> rfl

/-- The label of the heading of an action: its number among several. -/
def actionLabel (index count : UInt32) : Option String :=
  if count = 1 then
    some "Action"
  else do
    let number ← successor index.toNat
    return "Action " ++ decimal number ++ "/" ++ decimal count.toNat

theorem actionLabel_eq_some {index : UInt32} (fits : index.toNat + 1 < wordLimit)
    (count : UInt32) : actionLabel index count = some (NearSigner.actionLabel index count) := by
  rw [actionLabel, NearSigner.actionLabel, successor_eq_some fits, Borsh.FitsWord.toNat_add_one fits]
  split <;> rfl

/-! ## Entries -/

/-- The entries that show a permission. -/
def permissionContents : Permission MethodNames → Option (List (String × String))
  | .functionCall allowance receiver methods => do
      let shown ← methodsShown methods
      return [("Permission", "Function call"),
        ("Allowance (yoctoNEAR)",
          match allowance with
          | some amount => decimal amount.toNat
          | none => "Unlimited"),
        ("Contract", receiver),
        ("Methods", shown)]
  | .fullAccess => some (Permission.contents .fullAccess)

theorem permissionContents_eq_some (permission : Permission MethodNames) :
    permissionContents permission = some permission.contents := by
  cases permission with
  | functionCall allowance receiver methods =>
      simp only [permissionContents, methodsShown_eq_some]
      rfl
  | fullAccess => rfl

/-- The entries that show what an action does. -/
def actionContents : Action MethodNames → Option (List (String × String))
  | .stake amount validatorKey => do
      let shown ← keyText validatorKey
      return [("Stake (yoctoNEAR)", decimal amount.toNat), ("Validator key", shown)]
  | .addKey publicKey accessKey => do
      let shown ← keyText publicKey
      let permission ← permissionContents accessKey.permission
      return ("Public key", shown) :: ("Key nonce", decimal accessKey.nonce.toNat) :: permission
  | .deleteKey publicKey => do
      let shown ← keyText publicKey
      return [("Public key", shown)]
  | action => some action.contents

theorem actionContents_eq_some (action : Action MethodNames) :
    actionContents action = some action.contents := by
  cases action with
  | stake amount validatorKey =>
      rw [actionContents, keyText_eq_some]
      rfl
  | addKey publicKey accessKey =>
      rw [actionContents, keyText_eq_some, permissionContents_eq_some]
      rfl
  | deleteKey publicKey =>
      rw [actionContents, keyText_eq_some]
      rfl
  | _ => rfl

/-- The entries that show a field. -/
def fieldContents : Field → Option (List (String × String))
  | .action index count effect => do
      let label ← actionLabel index count
      let contents ← actionContents effect
      return (label, effect.kind.name) :: contents
  | field => some field.contents

theorem fieldContents_action {index : UInt32} (fits : index.toNat + 1 < wordLimit)
    (count : UInt32) (effect : Action MethodNames) :
    fieldContents (.action index count effect) =
      some (Field.action index count effect).contents := by
  rw [fieldContents, actionLabel_eq_some fits, actionContents_eq_some]
  rfl

/-! ## Decoding -/

/-- How far a decoder has come: where it reads, and the plan of the fields that
it has handed over. -/
structure Decoding where
  source : Source
  plan : Plan
deriving DecidableEq, Repr

/-- A computation that reads and shows fields. -/
abbrev Decoder (α : Type) := Computation Decoding α

namespace Decoder

/-- Read a part of the transaction. -/
def read {α : Type} (reader : Reader α) : Decoder α := fun decoding => do
  let (result, source) ← Computation.run reader decoding.source
  return (result, { decoding with source })

/-- Show a field. -/
def visit (field : Field) : Decoder Unit := do
  let contents ← fieldContents field
  modify fun decoding =>
    { decoding with
      plan := contents.foldl (fun plan content => plan.push content.1 content.2) decoding.plan }

/-- Read and show `remaining` actions, the first of which is at `index` of
`count`. -/
def actions (count : UInt32) : (index : UInt32) → (remaining : Nat) → Decoder Unit
  | _, 0 => pure ()
  | index, remaining + 1 => do
      visit (.action index count (← read Reader.action))
      actions count (index + 1) remaining

/-- The check that nothing follows. -/
def finish : Decoder Unit := do
  let decoding ← get
  let remaining ← decoding.source.remaining
  unless remaining == 0 do
    throw .trailingData

/-- Read and show a transaction that nothing follows. -/
def transaction : Decoder Unit := do
  visit (.signer (← read Reader.text))
  visit (.signerKey (← read Reader.publicKey))
  visit (.nonce (← read Reader.u64))
  visit (.receiver (← read Reader.text))
  visit (.blockHash (← read (Reader.block 32)))
  let count ← read Reader.u32
  visit (.actionCount count)
  actions count 0 count.toNat
  finish

/-- The decoders read one buffer at one place, and what has been handed over is
shown. -/
structure Together (buffer : Bytes) (decoding : Decoding) (progress : Progress) : Prop where
  reading : Source.At buffer 0 decoding.source progress.cursor
  shown : decoding.plan = Plan.ofFields progress.visited

variable {α : Type} {buffer : Bytes}

theorem read_mirrors {reader : Reader α} {plain : Borsh.Reader α} (reads : reader.Reads plain) :
    Mirrors (Together buffer) (read reader) (NearSigner.Decoder.read plain) := by
  rintro ⟨source, plan⟩ ⟨cursor, visited⟩ ⟨reading, shown⟩
  rcases reads buffer 0 source cursor reading with ⟨next, run_eq, there⟩
  refine ⟨{ source := next, plan }, ?_, there, shown⟩
  change (Computation.run reader source >>= _) = _
  rw [run_eq]
  rfl

theorem ofList_append (first second : List (String × String)) :
    Plan.ofList (first ++ second) =
      second.foldl (fun plan content => plan.push content.1 content.2) (Plan.ofList first) := by
  rw [Plan.ofList_eq_foldl, List.foldl_append, ← Plan.ofList_eq_foldl]

theorem visit_mirrors {field : Field} (faultless : fieldContents field = some field.contents) :
    Mirrors (Together buffer) (visit field) (NearSigner.Decoder.visit field) := by
  rintro ⟨source, plan⟩ ⟨cursor, visited⟩ ⟨reading, shown⟩
  apply MirrorsFrom.lift_bind faultless
  refine ⟨_, rfl, reading, ?_⟩
  obtain rfl : plan = Plan.ofFields visited := shown
  change field.contents.foldl _ (Plan.ofFields visited) = Plan.ofFields (visited ++ [field])
  rw [Plan.ofFields, Plan.ofFields, List.flatMap_append, List.flatMap_singleton, ofList_append]

theorem actions_mirrors (count index : UInt32) (remaining : Nat)
    (counted : index.toNat + remaining = count.toNat) :
    Mirrors (Together buffer) (actions count index remaining)
      (NearSigner.Decoder.actions count index remaining) := by
  induction remaining generalizing index with
  | zero => exact .pure ()
  | succ remaining ih =>
      -- There is an action left, so the number of this one is at most the declared number.
      have fits : index.toNat + 1 < wordLimit := by
        have bound : count.toNat < wordLimit := count.toNat_lt
        omega
      apply (read_mirrors Reader.action_reads).bind
      intro effect
      apply (visit_mirrors (fieldContents_action fits count effect)).bind
      intro _
      apply ih
      rw [Borsh.FitsWord.toNat_add_one fits]
      omega

theorem finish_mirrors : Mirrors (Together buffer) finish NearSigner.Decoder.finish := by
  intro decoding progress here
  apply MirrorsFrom.get_bind
  apply MirrorsFrom.lift_bind here.reading.remaining_eq
  change MirrorsFrom _ (unless progress.cursor.atEnd do throw .trailingData)
    (unless progress.cursor.atEnd do throw .trailingData) _ _
  cases progress.cursor.atEnd with
  | true => exact .pure () here
  | false => exact .throw .trailingData here

theorem transaction_mirrors :
    Mirrors (Together buffer) transaction NearSigner.Decoder.transaction := by
  apply (read_mirrors Reader.text_reads).bind
  intro signer
  apply (visit_mirrors rfl).bind
  intro _
  apply (read_mirrors Reader.publicKey_reads).bind
  intro signerKey
  apply (visit_mirrors rfl).bind
  intro _
  apply (read_mirrors Reader.u64_reads).bind
  intro nonce
  apply (visit_mirrors rfl).bind
  intro _
  apply (read_mirrors Reader.text_reads).bind
  intro receiver
  apply (visit_mirrors rfl).bind
  intro _
  apply (read_mirrors (Reader.block_reads 32)).bind
  intro blockHash
  apply (visit_mirrors rfl).bind
  intro _
  apply (read_mirrors Reader.u32_reads).bind
  intro count
  apply (visit_mirrors rfl).bind
  intro _
  apply (actions_mirrors count 0 count.toNat (Nat.zero_add _)).bind
  intro _
  exact finish_mirrors

end Decoder

/-- Decode a whole buffer as a transaction, and show it. -/
def decode (buffer : Bytes) : Option (Except Refusal Unit × Plan) := do
  let (result, decoding) ← Computation.run Decoder.transaction
    { source := Source.start buffer, plan := Plan.empty }
  return (result, decoding.plan)

theorem decode_eq_some (buffer : Bytes) :
    decode buffer =
      some ((Transaction.decode buffer).result, (Transaction.decode buffer).plan) := by
  have together : Decoder.Together buffer { source := Source.start buffer, plan := Plan.empty }
      { cursor := Borsh.Cursor.start buffer, visited := [] } :=
    ⟨Source.At.start buffer, rfl⟩
  rcases Decoder.transaction_mirrors _ _ together with ⟨final, run_eq, there⟩
  rw [decode, run_eq]
  change some (_, final.plan) = _
  rw [there.shown]
  rfl

end NearSigner.Checked
