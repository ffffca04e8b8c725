import NearSigner.Proofs.Session.Fragments

/-!
# Two ways to one signature

A transaction can be sent as it is, in fragments, or by its hash.  The first
way keeps the octets until the user has approved their plan and hashes them
then; the second has the hash from the start.  Both release one signature.
-/

namespace NearSigner

namespace Session

/-- The user turns over every entry of the plan under review and confirms. -/
def approve (device : Device) (session : Session) : Option (Except Refusal Answer) × Session :=
  match session.review? with
  | some plan =>
      (session.run device.secret
        (List.replicate plan.length ⟨device.blindSigning, .input .next⟩)).input device .confirm
  | none => (none, session)

variable (device : Device)

/-- An approval from the start of a review releases what the review is about. -/
theorem approve_start (fragments : Reassembly) (subject : Subject) (plan : Plan) :
    (reviewing fragments (Review.start subject plan)).approve device =
      (some ((reviewing fragments
          { subject, plan, approval := .reviewing plan.length plan.length }).release device
            { subject, plan, approval := .approved }), fresh) := by
  have shown : (reviewing fragments (Review.start subject plan)).review? = some plan := rfl
  simp only [approve, shown]
  rw [Review.start, Approval.start, run_replicate_next _ _ _ _ _ (Nat.zero_le _), Nat.zero_add,
    Nat.min_self, input_confirm]

/-- The last fragment of a transaction that decodes opens its review. -/
theorem update_last_fragment {steps : List Occurrence} {secret : Path → Block 32} {path : Path}
    {octets last : Bytes} (preparatory : ∀ step ∈ steps, step.Preparatory)
    (message : offeredData steps ++ last = path.bytes ++ octets)
    (fits : (path.bytes ++ octets).length ≤ maxMessage) (account : path.isAccount = true)
    (decoded : (Transaction.decode octets).result = .ok ()) :
    (fresh.run secret steps).update device (.signChunk true last) =
      (.ok .pending, reviewing { stage := .complete, buffer := path.bytes ++ octets }
        (Review.start (.signature path .transaction) (Transaction.decode octets).plan)) := by
  have stepsFit : (offeredData steps).length ≤ maxMessage := by
    rw [← message] at fits
    exact Nat.le_trans (by simp) fits
  have asked := reviewUnder_eq_ok_iff.mpr ⟨account, decoded, rfl⟩
  rw [update_run_preparatory device preparatory stepsFit, message, received_last fits]
  exact completed_of_ok ((reviewOf_append path octets).trans asked)

/-- The hash of a transaction opens a review of the hash, if the setting allows
it. -/
theorem update_hash {path : Path} (enabled : device.blindSigning = true)
    (account : path.isAccount = true) (hash : Block 32) :
    fresh.update device (.blindSign (path.bytes ++ hash.toBytes)) =
      (.ok .pending, reviewing .empty
        (Review.start (.signature path (.hash hash)) (Plan.forBlindHash hash))) := by
  have read := Request.decodeBlind_eq_ok_iff.mpr (rfl : path.bytes ++ hash.toBytes = _)
  rw [update_blindSign, if_pos enabled]
  simp only [read, if_pos account]

variable {device}

/-- A transaction that is sent in fragments and approved is signed as it is when
its hash is sent and approved.  However the message is cut, and whatever
harmless commands come between the fragments, both ways open a review on the
same idle session, and the approvals release one signature. -/
theorem blind_agrees_with_structured (enabled : device.blindSigning = true) {session : Session}
    (reachable : Reachable device.secret session) (idle : session.phase = .idle) {path : Path}
    (account : path.purpose = 0x8000002C ∧ path.coinType = 0x8000018D) {octets : Bytes}
    (fits : octets.length ≤ 650) (decoded : (Transaction.decode octets).result = .ok ())
    {steps : List Occurrence} (preparatory : ∀ step ∈ steps, step.Preparatory) {last : Bytes}
    (message : offeredData steps ++ last = path.bytes ++ octets) :
    let structured := (session.run device.secret steps).update device (.signChunk true last)
    let blind := session.update device (.blindSign (path.bytes ++ (Sha2.sha256 octets).toBytes))
    structured.1 = .ok .pending ∧ structured.2.review? = some (Transaction.decode octets).plan ∧
    blind.1 = .ok .pending ∧ blind.2.review? = some (Plan.forBlindHash (Sha2.sha256 octets)) ∧
    ∃ signature : Block 64,
      structured.2.approve device = (some (.ok (.response (.signature signature))), fresh) ∧
      blind.2.approve device = (some (.ok (.response (.signature signature))), fresh) := by
  obtain rfl := reachable.coherent.eq_fresh idle
  have isAccount : path.isAccount = true := Path.isAccount_iff.mpr account
  have messageFits : (path.bytes ++ octets).length ≤ maxMessage := by
    rw [List.length_append, Path.length_bytes]
    exact Nat.add_le_add_left fits Path.wireLength
  intro structured blind
  have structured_eq : structured = _ :=
    update_last_fragment device preparatory message messageFits isAccount decoded
  have blind_eq : blind = _ := update_hash device enabled isAccount (Sha2.sha256 octets)
  rw [structured_eq, blind_eq]
  refine ⟨rfl, rfl, rfl, rfl, Ed25519.sign (device.secret path) (Sha2.sha256 octets).toBytes,
    ?_, ?_⟩
  · rw [approve_start, release_transaction device octets _ isAccount]
  · rw [approve_start, release_hash device _ _ isAccount]

theorem blind_agrees_after_interruptedStart :
    let device : Device := { secret := fun _ => Vector.replicate 32 7, blindSigning := true }
    let octets := Transaction.restrictedKey.encode
    let structured := (fresh.run device.secret interruptedStart).update device
      (.signChunk true (restrictedKeyMessage.drop 7))
    let blind := fresh.update device
      (.blindSign ((Path.ofAccount 3).bytes ++ (Sha2.sha256 octets).toBytes))
    octets.length ≤ 650 ∧ (Transaction.decode octets).result = .ok () ∧
    offeredData interruptedStart ++ restrictedKeyMessage.drop 7 =
      (Path.ofAccount 3).bytes ++ octets ∧
    ∃ signature : Block 64,
      structured.2.approve device = (some (.ok (.response (.signature signature))), fresh) ∧
      blind.2.approve device = (some (.ok (.response (.signature signature))), fresh) := by
  intro device octets structured blind
  have fits : octets.length ≤ 650 := by decide +kernel
  have message : offeredData interruptedStart ++ restrictedKeyMessage.drop 7 =
      (Path.ofAccount 3).bytes ++ octets := by
    rw [offeredData_interruptedStart, List.take_append_drop]
    rfl
  have reachable : Reachable device.secret fresh := ⟨[], rfl⟩
  obtain ⟨_, _, _, _, signature, signed⟩ := blind_agrees_with_structured rfl reachable rfl
    (by decide) fits decode_result_restrictedKey interruptedStart_preparatory message
  exact ⟨fits, decode_result_restrictedKey, message, signature, signed⟩

end Session

end NearSigner
