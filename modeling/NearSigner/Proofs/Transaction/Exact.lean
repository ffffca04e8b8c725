import NearSigner.Proofs.Transaction.Parts

/-!
# Decoding is exact

The decoder accepts precisely the canonical encodings of transactions whose
lengths can be written, and hands over precisely the fields of what was
encoded.  Everything else is refused as malformed.
-/

namespace NearSigner

open Borsh

namespace Decoder

variable {α β γ : Type}

/-- Run a decoder from a place. -/
def runAt (decoder : Decoder α) (progress : Progress) : Except Refusal α × Progress :=
  StateT.run (ExceptT.run decoder) progress

/-- Reading a part and handing it over, before the rest. -/
theorem runAt_read_visit (reader : Reader α) (field : α → Field) (rest : α → Decoder β)
    (progress : Progress) :
    runAt (do let part ← read reader; visit (field part); rest part) progress =
      match reader.runAt progress.cursor with
      | (.ok part, cursor) =>
          (rest part).runAt { cursor, visited := progress.visited ++ [field part] }
      | (.error refusal, cursor) => (.error refusal, { progress with cursor }) := by
  have ran : StateT.run (ExceptT.run (read reader)) progress =
      ((reader.runAt progress.cursor).1,
        { progress with cursor := (reader.runAt progress.cursor).2 }) := rfl
  rw [runAt, ExceptT.run_bind, StateT.run_bind, ran]
  rcases reader.runAt progress.cursor with ⟨result, cursor⟩
  cases result <;> rfl

/-- A part that is read exactly is handed over before the rest goes on behind
its encoding. -/
theorem runAt_read_visit_eq_ok_iff {reader : Reader α} {view : γ → α} {Fits : γ → Prop}
    {encode : γ → Bytes} (exact : reader.ExactThrough view Fits encode) {field : α → Field}
    {rest : α → Decoder β} {progress final : Progress} {result : β} :
    runAt (do let part ← read reader; visit (field part); rest part) progress =
        (.ok result, final) ↔
      ∃ source middle, (Fits source ∧ progress.cursor.Passes (encode source) middle) ∧
        (rest (view source)).runAt
            { cursor := middle, visited := progress.visited ++ [field (view source)] } =
          (.ok result, final) := by
  rw [runAt_read_visit]
  constructor
  · intro succeeded
    split at succeeded
    · rename_i part middle read
      rcases exact.mp read with ⟨source, fits, rfl, passes⟩
      exact ⟨source, middle, ⟨fits, passes⟩, succeeded⟩
    · cases succeeded
  · rintro ⟨source, middle, ⟨fits, passes⟩, succeeded⟩
    have read : reader.runAt progress.cursor = (.ok (view source), middle) :=
      exact.mpr ⟨source, fits, rfl, passes⟩
    rw [read]
    exact succeeded

/-- The actions of a list are handed over with their places in it. -/
theorem runAt_actions_eq_ok_iff {count index : UInt32} {remaining : Nat}
    {progress final : Progress} :
    (actions count index remaining).runAt progress = (.ok (), final) ↔
      ∃ list : List (Action (List String)),
        list.length = remaining ∧ (∀ action ∈ list, action.Fits) ∧
        progress.cursor.Passes (list.flatMap Action.encode) final.cursor ∧
        final.visited = progress.visited ++ Field.ofActions count index list := by
  induction remaining generalizing index progress with
  | zero =>
      constructor
      · intro succeeded
        cases succeeded
        exact ⟨[], rfl, by simp, by simp, by simp [Field.ofActions]⟩
      · rintro ⟨list, length_eq, _, passes, visited_eq⟩
        obtain rfl := List.length_eq_zero_iff.mp length_eq
        have cursor_eq := Cursor.passes_nil_iff.mp passes
        have same : final = progress := by
          rcases final with ⟨cursor, visited⟩
          simp_all [Field.ofActions]
        rw [same]
        rfl
  | succ remaining ih =>
      rw [actions, runAt_read_visit_eq_ok_iff Action.reader_exact]
      constructor
      · rintro ⟨action, middle, ⟨fits, passes⟩, succeeded⟩
        rcases ih.mp succeeded with ⟨others, length_eq, othersFit, othersPass, visited_eq⟩
        refine ⟨action :: others, by simp [length_eq],
          List.forall_mem_cons.mpr ⟨fits, othersFit⟩, ?_, ?_⟩
        · exact Cursor.passes_append_iff.mpr ⟨middle, passes, othersPass⟩
        · rw [visited_eq, Field.ofActions, List.append_assoc, List.singleton_append]
      · rintro ⟨list, length_eq, fit, passes, visited_eq⟩
        rcases List.exists_cons_of_length_eq_add_one length_eq with ⟨action, others, rfl⟩
        rcases List.forall_mem_cons.mp fit with ⟨fits, othersFit⟩
        rcases Cursor.passes_append_iff.mp passes with ⟨middle, firstPasses, othersPass⟩
        refine ⟨action, middle, ⟨fits, firstPasses⟩, ih.mpr ?_⟩
        refine ⟨others, by simpa using length_eq, othersFit, othersPass, ?_⟩
        rw [visited_eq, Field.ofActions, List.append_assoc, List.singleton_append]

/-- One decoder after another starts where the first one stops, unless that one
fails. -/
theorem runAt_bind (first : Decoder α) (second : α → Decoder β) (progress : Progress) :
    (first >>= second).runAt progress =
      match first.runAt progress with
      | (.ok value, next) => (second value).runAt next
      | (.error refusal, next) => (.error refusal, next) := by
  simp only [runAt, ExceptT.run_bind, StateT.run_bind]
  rcases StateT.run (ExceptT.run first) progress with ⟨result, next⟩
  cases result <;> rfl

/-- The check that nothing follows. -/
def finish : Decoder Unit := do
  unless (← get).cursor.atEnd do
    throw .trailingData

theorem runAt_finish (progress : Progress) :
    finish.runAt progress =
      (if progress.cursor.atEnd then .ok () else .error .trailingData, progress) := by
  rw [finish, runAt_bind]
  change runAt (unless progress.cursor.atEnd do throw .trailingData) progress = _
  cases progress.cursor.atEnd <;> rfl

/-- The actions of a list are the last octets. -/
theorem runAt_actions_finish_eq_ok_iff {count : UInt32} {progress final : Progress} :
    (do actions count 0 count.toNat; finish).runAt progress = (.ok (), final) ↔
      (actions count 0 count.toNat).runAt progress = (.ok (), final) ∧
        final.cursor.atEnd = true := by
  rw [runAt_bind]
  rcases (actions count 0 count.toNat).runAt progress with ⟨result, stop⟩
  cases result with
  | error refusal => simp
  | ok _ =>
      change finish.runAt stop = _ ↔ _
      rw [runAt_finish]
      by_cases ended : stop.cursor.atEnd
      · simp only [ended, if_true]
        constructor
        · intro same
          cases same
          exact ⟨rfl, ended⟩
        · rintro ⟨same, _⟩
          exact same
      · simp only [ended, if_false, Prod.mk.injEq, reduceCtorEq, false_and, false_iff]
        rintro ⟨⟨_, rfl⟩, atEnd⟩
        exact ended atEnd

end Decoder

/-- A transaction whose lengths can all be written. -/
structure Transaction.Fits (transaction : Transaction) : Prop where
  signer : TextFits transaction.signer
  receiver : TextFits transaction.receiver
  count : FitsWord transaction.actions.length
  each : ∀ action ∈ transaction.actions, action.Fits

instance (transaction : Transaction) : Decidable transaction.Fits :=
  decidable_of_iff
    (TextFits transaction.signer ∧ TextFits transaction.receiver ∧
      FitsWord transaction.actions.length ∧ ∀ action ∈ transaction.actions, action.Fits)
    ⟨fun ⟨signer, receiver, count, each⟩ => ⟨signer, receiver, count, each⟩,
      fun fits => ⟨fits.signer, fits.receiver, fits.count, fits.each⟩⟩

namespace Decoder

/-- Decoding succeeds on the encodings of transactions and hands over their
fields. -/
theorem runAt_transaction_eq_ok_iff {progress final : Progress} :
    transaction.runAt progress = (.ok (), final) ↔
      ∃ source : Transaction, source.Fits ∧
        progress.cursor.Passes source.encode final.cursor ∧ final.cursor.atEnd = true ∧
        final.visited = progress.visited ++ source.fields := by
  rw [transaction, runAt_read_visit_eq_ok_iff Reader.text_exact.through]
  constructor
  · rintro ⟨signer, first, ⟨signerFits, signerPasses⟩, read⟩
    obtain ⟨signerKey, second, ⟨_, keyPasses⟩, read⟩ :=
      (runAt_read_visit_eq_ok_iff PublicKey.reader_exact.through).mp read
    obtain ⟨nonce, third, ⟨_, noncePasses⟩, read⟩ :=
      (runAt_read_visit_eq_ok_iff Reader.u64_exact.through).mp read
    obtain ⟨receiver, fourth, ⟨receiverFits, receiverPasses⟩, read⟩ :=
      (runAt_read_visit_eq_ok_iff Reader.text_exact.through).mp read
    obtain ⟨blockHash, fifth, ⟨_, hashPasses⟩, read⟩ :=
      (runAt_read_visit_eq_ok_iff (Reader.block_exact 32).through).mp read
    obtain ⟨count, sixth, ⟨_, countPasses⟩, read⟩ :=
      (runAt_read_visit_eq_ok_iff Reader.u32_exact.through).mp read
    rcases runAt_actions_finish_eq_ok_iff.mp read with ⟨actionsRead, atEnd⟩
    obtain ⟨list, length_eq, fit, actionsPass, visited_eq⟩ :=
      runAt_actions_eq_ok_iff.mp actionsRead
    have count_eq : UInt32.ofNat list.length = count := by
      rw [length_eq]
      exact UInt32.ofNat_toNat
    have countFits : FitsWord list.length := by
      rw [FitsWord, length_eq]
      exact UInt32.toNat_lt _
    refine ⟨{ signer, signerKey, nonce, receiver, blockHash, actions := list },
      ⟨signerFits, receiverFits, countFits, fit⟩, ?_, atEnd, ?_⟩
    · simp only [Transaction.encode, Borsh.sequence, Borsh.length, count_eq,
        Cursor.passes_append_iff]
      exact ⟨fifth, ⟨fourth, ⟨third, ⟨second, ⟨first, signerPasses, keyPasses⟩, noncePasses⟩,
        receiverPasses⟩, hashPasses⟩, sixth, countPasses, actionsPass⟩
    · simp [visited_eq, Transaction.fields, count_eq]
  · rintro ⟨source, fits, passes, atEnd, visited_eq⟩
    have length_eq : source.actions.length = (UInt32.ofNat source.actions.length).toNat :=
      (UInt32.toNat_ofNat_of_lt' fits.count).symm
    simp only [Transaction.encode, Borsh.sequence, Borsh.length,
      Cursor.passes_append_iff] at passes
    obtain ⟨fifth, ⟨fourth, ⟨third, ⟨second, ⟨first, signerPasses, keyPasses⟩, noncePasses⟩,
      receiverPasses⟩, hashPasses⟩, sixth, countPasses, actionsPass⟩ := passes
    refine ⟨source.signer, first, ⟨fits.signer, signerPasses⟩, ?_⟩
    refine (runAt_read_visit_eq_ok_iff PublicKey.reader_exact.through).mpr
      ⟨source.signerKey, second, ⟨trivial, keyPasses⟩, ?_⟩
    refine (runAt_read_visit_eq_ok_iff Reader.u64_exact.through).mpr
      ⟨source.nonce, third, ⟨trivial, noncePasses⟩, ?_⟩
    refine (runAt_read_visit_eq_ok_iff Reader.text_exact.through).mpr
      ⟨source.receiver, fourth, ⟨fits.receiver, receiverPasses⟩, ?_⟩
    refine (runAt_read_visit_eq_ok_iff (Reader.block_exact 32).through).mpr
      ⟨source.blockHash, fifth, ⟨trivial, hashPasses⟩, ?_⟩
    refine (runAt_read_visit_eq_ok_iff Reader.u32_exact.through).mpr
      ⟨_, sixth, ⟨trivial, countPasses⟩, ?_⟩
    refine runAt_actions_finish_eq_ok_iff.mpr ⟨runAt_actions_eq_ok_iff.mpr ?_, atEnd⟩
    exact ⟨source.actions, length_eq, fits.each, actionsPass,
      by simp [visited_eq, Transaction.fields]⟩

/-! ## What is kept when decoders are put together -/

/-- A property of decoders that is kept when a part with a given property is read
and handed over first. -/
structure Law (HoldsOf : (α : Type) → Reader α → Prop) (Holds : Decoder Unit → Prop) : Prop where
  read_visit {α : Type} {reader : Reader α} {field : α → Field} {rest : α → Decoder Unit}
    (readerHolds : HoldsOf α reader) (restHolds : ∀ part, Holds (rest part)) :
    Holds (do let part ← read reader; visit (field part); rest part)
  finish : Holds Decoder.finish

namespace Law

variable {HoldsOf : (α : Type) → Reader α → Prop} {Holds : Decoder Unit → Prop}
  (law : Law HoldsOf Holds) (ofReaders : Reader.Law HoldsOf)
include law ofReaders

/-- The check at the end belongs to the last of the actions, so both are taken
together. -/
theorem actions (count index : UInt32) (remaining : Nat) :
    Holds (do Decoder.actions count index remaining; Decoder.finish) := by
  induction remaining generalizing index with
  | zero =>
      rw [Decoder.actions, pure_bind]
      exact law.finish
  | succ remaining ih =>
      simp only [Decoder.actions, bind_assoc]
      exact law.read_visit ofReaders.action fun _ => ih (index + 1)

theorem transaction : Holds transaction := by
  apply law.read_visit ofReaders.text
  intro signer
  apply law.read_visit ofReaders.publicKey
  intro signerKey
  apply law.read_visit ofReaders.u64
  intro nonce
  apply law.read_visit ofReaders.text
  intro receiver
  apply law.read_visit (ofReaders.block 32)
  intro blockHash
  apply law.read_visit ofReaders.u32
  intro count
  exact law.actions ofReaders count 0 count.toNat

end Law

/-! ## Failures -/

/-- Every failure of the decoder reports malformed data. -/
def FailsMalformed (decoder : Decoder α) : Prop :=
  ∀ ⦃progress next : Progress⦄ ⦃refusal : Refusal⦄,
    decoder.runAt progress = (.error refusal, next) → refusal.isMalformed = true

theorem failsMalformed_law :
    Law (fun _ reader => reader.FailsMalformed) fun decoder => decoder.FailsMalformed where
  read_visit readerFails restFails := by
    intro progress next refusal failed
    rw [runAt_read_visit] at failed
    split at failed
    · exact restFails _ failed
    · rename_i earlier cursor readFailed
      cases failed
      exact readerFails readFailed
  finish := by
    intro progress next refusal failed
    rw [runAt_finish] at failed
    split at failed
    · cases failed
    · cases failed
      rfl

end Decoder

/-! ## The fields determine the transaction -/

theorem Action.map_names_map_ofList {action : Action (List String)} (fits : action.Fits) :
    (action.map MethodNames.ofList).map MethodNames.names = action := by
  cases action with
  | addKey publicKey accessKey =>
      rcases accessKey with ⟨nonce, permission⟩
      cases permission with
      | functionCall allowance receiver methods =>
          simp [Action.map, AccessKey.map, Permission.map, MethodNames.names_ofList fits.2]
      | fullAccess => rfl
  | _ => rfl

theorem Field.ofActions_injective {count index : UInt32}
    {first second : List (Action (List String))} (firstFit : ∀ action ∈ first, action.Fits)
    (secondFit : ∀ action ∈ second, action.Fits)
    (equal : ofActions count index first = ofActions count index second) : first = second := by
  induction first generalizing index second with
  | nil =>
      cases second with
      | nil => rfl
      | cons action others => simp [ofActions] at equal
  | cons action others ih =>
      cases second with
      | nil => simp [ofActions] at equal
      | cons action' others' =>
          simp only [ofActions, List.cons.injEq, Field.action.injEq, true_and] at equal
          obtain ⟨action_eq, others_eq⟩ := equal
          rcases List.forall_mem_cons.mp firstFit with ⟨fits, othersFit⟩
          rcases List.forall_mem_cons.mp secondFit with ⟨fits', othersFit'⟩
          have same : action = action' := by
            rw [← Action.map_names_map_ofList fits, action_eq,
              Action.map_names_map_ofList fits']
          rw [same, ih othersFit othersFit' others_eq]

namespace Transaction

theorem fields_injective {first second : Transaction} (firstFits : first.Fits)
    (secondFits : second.Fits) (equal : first.fields = second.fields) : first = second := by
  rcases first with ⟨signer, signerKey, nonce, receiver, blockHash, actions⟩
  rcases second with ⟨signer', signerKey', nonce', receiver', blockHash', actions'⟩
  simp only [fields, List.cons_append, List.nil_append, List.cons.injEq, Field.signer.injEq,
    Field.signerKey.injEq, Field.nonce.injEq, Field.receiver.injEq, Field.blockHash.injEq,
    Field.actionCount.injEq] at equal
  obtain ⟨rfl, rfl, rfl, rfl, rfl, count_eq, actions_eq⟩ := equal
  rw [count_eq] at actions_eq
  obtain rfl := Field.ofActions_injective firstFits.each secondFits.each actions_eq
  rfl

/-- Octets decode without a failure exactly when they are the encoding of a
transaction, whose fields are then handed over. -/
theorem decode_eq_ok_iff {bytes : Bytes} {fields : List Field} :
    decode bytes = { fields, result := .ok () } ↔
      ∃ transaction : Transaction, transaction.Fits ∧ bytes = transaction.encode ∧
        fields = transaction.fields := by
  have unfolded : decode bytes =
      let outcome := Decoder.transaction.runAt { cursor := Cursor.start bytes, visited := [] }
      { fields := outcome.2.visited, result := outcome.1 } :=
    rfl
  rw [unfolded]
  constructor
  · intro accepted
    rcases ran : Decoder.transaction.runAt { cursor := Cursor.start bytes, visited := [] } with
      ⟨result, final⟩
    rw [ran] at accepted
    cases accepted
    obtain ⟨transaction, fits, passes, atEnd, visited_eq⟩ :=
      Decoder.runAt_transaction_eq_ok_iff.mp ran
    rcases Cursor.passes_start_atEnd_iff.mp ⟨passes, atEnd⟩ with ⟨bytes_eq, _⟩
    exact ⟨transaction, fits, bytes_eq, by simpa using visited_eq⟩
  · rintro ⟨transaction, fits, rfl, rfl⟩
    obtain ⟨passes, atEnd⟩ := Cursor.passes_start_atEnd_iff.mpr
      (⟨rfl, rfl⟩ : transaction.encode = transaction.encode ∧ _)
    have ran : Decoder.transaction.runAt
          { cursor := Cursor.start transaction.encode, visited := [] } =
        (.ok (), { cursor := { position := transaction.encode.length, rest := [] }
                   visited := transaction.fields }) :=
      Decoder.runAt_transaction_eq_ok_iff.mpr ⟨transaction, fits, passes, atEnd, rfl⟩
    rw [ran]

/-- A decoding that fails reports malformed data. -/
theorem isMalformed_of_decode {bytes : Bytes} {refusal : Refusal}
    (failed : (decode bytes).result = .error refusal) : refusal.isMalformed = true := by
  rcases ran : Decoder.transaction.runAt { cursor := Cursor.start bytes, visited := [] } with
    ⟨result, final⟩
  have result_eq : (decode bytes).result = result := congrArg Prod.fst ran
  rw [result_eq] at failed
  rw [failed] at ran
  exact Decoder.failsMalformed_law.transaction Reader.failsMalformed_law ran

theorem exists_of_decode_ok {bytes : Bytes} (accepted : (decode bytes).result = .ok ()) :
    ∃ transaction : Transaction, transaction.Fits ∧ bytes = transaction.encode ∧
      (decode bytes).fields = transaction.fields := by
  apply decode_eq_ok_iff.mp
  rw [← accepted]

theorem decode_eq_fields_iff {bytes : Bytes} {transaction : Transaction}
    (fits : transaction.Fits) :
    decode bytes = { fields := transaction.fields, result := .ok () } ↔
      bytes = transaction.encode := by
  rw [decode_eq_ok_iff]
  constructor
  · rintro ⟨source, sourceFits, bytes_eq, fields_eq⟩
    rwa [fields_injective fits sourceFits fields_eq]
  · intro bytes_eq
    exact ⟨transaction, fits, bytes_eq, rfl⟩

theorem refused_of_ne_encode {bytes : Bytes}
    (other : ∀ transaction : Transaction, transaction.Fits → bytes ≠ transaction.encode) :
    ∃ refusal, (decode bytes).result = .error refusal ∧ refusal.isMalformed = true := by
  cases result : (decode bytes).result with
  | ok _ =>
      rcases exists_of_decode_ok result with ⟨transaction, fits, bytes_eq, _⟩
      exact absurd bytes_eq (other transaction fits)
  | error refusal => exact ⟨refusal, rfl, isMalformed_of_decode result⟩

/-- The decoder accepts exactly the canonical encodings and loses nothing.  The
fields of a transaction are handed over, without a failure, precisely from its
encoding; whatever is accepted is the one encoding of the fields handed over;
and all other octets are refused for one of six causes, which the host sees as
malformed data. -/
theorem decode_accepts_exactly_encodings :
    (∀ (bytes : Bytes) (transaction : Transaction), transaction.Fits →
      (decode bytes = { fields := transaction.fields, result := .ok () } ↔
        bytes = transaction.encode)) ∧
    (∀ bytes : Bytes, (decode bytes).result = .ok () →
      ∃ transaction : Transaction, transaction.Fits ∧ bytes = transaction.encode ∧
        (decode bytes).fields = transaction.fields) ∧
    (∀ first second : Bytes, (decode first).result = .ok () →
      (decode second).result = .ok () → (decode first).fields = (decode second).fields →
        first = second) ∧
    (∀ bytes : Bytes,
      (∀ transaction : Transaction, transaction.Fits → bytes ≠ transaction.encode) →
        ∃ refusal : Refusal, (decode bytes).result = .error refusal ∧
          refusal ∈ [.truncatedInput, .invalidEncoding, .unknownActionType,
            .unknownPermissionType, .unsupportedKeyType, .trailingData] ∧
          refusal.status = .parsingError) := by
  constructor
  · intro bytes transaction fits
    exact decode_eq_fields_iff fits
  constructor
  · intro bytes accepted
    exact exists_of_decode_ok accepted
  constructor
  · intro first second firstAccepted secondAccepted fields_eq
    rcases exists_of_decode_ok firstAccepted with ⟨transaction, fits, first_eq, firstFields⟩
    rcases exists_of_decode_ok secondAccepted with
      ⟨other, otherFits, second_eq, secondFields⟩
    have same : transaction = other := by
      apply fields_injective fits otherFits
      rw [← firstFields, fields_eq, secondFields]
    rw [first_eq, same, second_eq]
  · intro bytes other
    rcases refused_of_ne_encode other with ⟨refusal, failed, malformed⟩
    have listed : refusal ∈ [Refusal.truncatedInput, .invalidEncoding, .unknownActionType,
        .unknownPermissionType, .unsupportedKeyType, .trailingData] := by
      cases refusal <;> simp_all [Refusal.isMalformed]
    exact ⟨refusal, failed, listed, (Refusal.status_eq_parsingError_iff refusal).mpr malformed⟩

/-- A transaction that restricts a key to two methods and pays for a call. -/
def restrictedKey : Transaction where
  signer := "alice.near"
  signerKey := { kind := .ed25519, data := Vector.replicate 32 7 }
  nonce := 4294967296
  receiver := "bob.near"
  blockHash := Vector.replicate 32 9
  actions :=
    [.addKey { kind := .ed25519, data := Vector.replicate 32 1 }
      { nonce := 3
        permission := .functionCall (some 1000000000000000000000000) "café.near"
          ["vote", ""] },
    .functionCall { methodName := "pay", args := [0x7b, 0x7d], gas := 5, deposit := 0 }]

theorem decode_restrictedKey :
    restrictedKey.Fits ∧
    decode restrictedKey.encode = { fields := restrictedKey.fields, result := .ok () } ∧
    (∃ transaction : Transaction, transaction.Fits ∧
      restrictedKey.encode = transaction.encode ∧
      (decode restrictedKey.encode).fields = transaction.fields) ∧
    (∀ bytes : Bytes, decode bytes = { fields := restrictedKey.fields, result := .ok () } →
      bytes = restrictedKey.encode) ∧
    ∃ refusal : Refusal, (decode []).result = .error refusal ∧
      refusal.status = .parsingError := by
  obtain ⟨exact_iff, canonical, unique, refused⟩ := decode_accepts_exactly_encodings
  have fits : restrictedKey.Fits := by decide
  have accepted := (exact_iff restrictedKey.encode restrictedKey fits).mpr rfl
  have empty_ne (transaction : Transaction) (_ : transaction.Fits) :
      [] ≠ transaction.encode := by
    intro equal
    have length_eq := congrArg List.length equal
    simp [encode, Borsh.text, Borsh.byteString, Borsh.length, Borsh.u32] at length_eq
    omega
  refine ⟨fits, accepted, canonical _ (by rw [accepted]), ?_, ?_⟩
  · intro bytes decoded
    exact unique bytes restrictedKey.encode (by rw [decoded]) (by rw [accepted])
      (by rw [decoded, accepted])
  · rcases refused [] empty_ne with ⟨refusal, failed, _, status_eq⟩
    exact ⟨refusal, failed, status_eq⟩

end Transaction

end NearSigner
