import Mathlib.Data.List.Induction
import NearSigner.Proofs.Session.Fragments

/-!
# Signatures and reviews

A signature is released only at the end of a review that was opened by one
command and in which every entry of the plan was on show.  The plan is that of
the data which is signed, and the data is that of the fragments since the
session was idle, or the hash of the one command.
-/

namespace NearSigner

namespace Session

/-- The session was idle after `idle` and has not been so since. -/
structure SinceIdle (secret : Path → Block 32) (idle since : List Occurrence) : Prop where
  idle_phase : (fresh.run secret idle).phase = .idle
  busy : ∀ front, front <+: since → front ≠ [] →
    (fresh.run secret (idle ++ front)).phase ≠ .idle

/-- One call opened a review of a plan, the plan has been on show ever since, and
so many of its entries have been. -/
structure Reviewed (secret : Path → Block 32) (before : List Occurrence) (opening : Occurrence)
    (interval : List Occurrence) (plan : Plan) (count : Nat) : Prop where
  pending : ∃ command, opening.call = .update command ∧
    ((fresh.run secret before).update (opening.device secret) command).1 = .ok .pending
  throughout : ∀ front, front <+: interval →
    (fresh.run secret (before ++ opening :: front)).phase = .reviewing ∧
      (fresh.run secret (before ++ opening :: front)).review? = some plan
  seen : ∀ index < count, ∃ front, front <+: interval ∧
    shownEntry? (fresh.run secret (before ++ opening :: front)) = some index

/-- How a history has led to a session. -/
inductive Explains (secret : Path → Block 32) (history : List Occurrence) : Session → Prop
  | ofFragments {session : Session} {idle since : List Occurrence}
      (history_eq : history = idle ++ since) (sinceIdle : SinceIdle secret idle since)
      (gathering : Gathering ((fresh.run secret idle).acceptedData secret since) session) :
      Explains secret history session
  | ofReview {before idle since interval : List Occurrence} {opening : Occurrence}
      {fragments : Reassembly} {subject : Subject} {plan : Plan} {page : Nat}
      (history_eq : history = before ++ opening :: interval) (before_eq : before = idle ++ since)
      (sinceIdle : SinceIdle secret idle since)
      (opens : Opens opening ((fresh.run secret idle).acceptedData secret since)
        fragments subject plan)
      (reviewed : Reviewed secret before opening interval plan (min (page + 1) plan.length)) :
      Explains secret history
        (reviewing fragments { subject, plan, approval := .reviewing page plan.length })

variable {secret : Path → Block 32}

theorem SinceIdle.start {idle : List Occurrence}
    (idle_phase : (fresh.run secret idle).phase = .idle) : SinceIdle secret idle [] := by
  constructor
  · exact idle_phase
  · intro front isPrefix nonempty
    exact absurd (List.prefix_nil.mp isPrefix) nonempty

theorem SinceIdle.extend {idle since : List Occurrence} {occurrence : Occurrence}
    (sinceIdle : SinceIdle secret idle since)
    (busy : (fresh.run secret (idle ++ (since ++ [occurrence]))).phase ≠ .idle) :
    SinceIdle secret idle (since ++ [occurrence]) := by
  constructor
  · exact sinceIdle.idle_phase
  · intro front isPrefix nonempty
    rcases List.prefix_concat_iff.mp isPrefix with rfl | earlier
    · exact busy
    · exact sinceIdle.busy front earlier nonempty

theorem shownEntry?_reviewing {fragments : Reassembly} {subject : Subject} {plan : Plan}
    {page : Nat} (inside : page < plan.length) :
    shownEntry? (reviewing fragments
      { subject, plan, approval := .reviewing page plan.length }) = some page :=
  if_pos inside

theorem Reviewed.start {before : List Occurrence} {opening : Occurrence} {command : Command}
    {fragments : Reassembly} {subject : Subject} {plan : Plan}
    (call : opening.call = .update command)
    (pending : ((fresh.run secret before).update (opening.device secret) command).1 = .ok .pending)
    (run_eq : fresh.run secret (before ++ [opening]) =
      reviewing fragments (Review.start subject plan)) :
    Reviewed secret before opening [] plan (min (0 + 1) plan.length) := by
  constructor
  · exact ⟨command, call, pending⟩
  · intro front isPrefix
    rw [List.prefix_nil.mp isPrefix, run_eq]
    exact ⟨rfl, rfl⟩
  · intro index below
    have index_eq : index = 0 := by omega
    have shown : shownEntry? (fresh.run secret (before ++ [opening])) = some index := by
      rw [run_eq, index_eq]
      exact shownEntry?_reviewing (by omega)
    exact ⟨[], List.prefix_rfl, shown⟩

theorem Reviewed.extend {before interval : List Occurrence} {opening occurrence : Occurrence}
    {fragments : Reassembly} {subject : Subject} {plan : Plan} {page shown : Nat}
    (reviewed : Reviewed secret before opening interval plan (min (page + 1) plan.length))
    (adjacent : shown ≤ page + 1)
    (run_eq : fresh.run secret (before ++ opening :: (interval ++ [occurrence])) =
      reviewing fragments { subject, plan, approval := .reviewing shown plan.length }) :
    Reviewed secret before opening (interval ++ [occurrence]) plan
      (min (shown + 1) plan.length) := by
  constructor
  · exact reviewed.pending
  · intro front isPrefix
    rcases List.prefix_concat_iff.mp isPrefix with rfl | earlier
    · rw [run_eq]
      exact ⟨rfl, rfl⟩
    · exact reviewed.throughout front earlier
  · intro index below
    -- An entry that was not seen before is the one that is shown now.
    by_cases earlier : index ≤ page
    · rcases reviewed.seen index (by omega) with ⟨front, isPrefix, shown_eq⟩
      exact ⟨front, isPrefix.trans (List.prefix_append _ _), shown_eq⟩
    · have index_eq : index = shown := by omega
      have shown_eq : shownEntry? (fresh.run secret
          (before ++ opening :: (interval ++ [occurrence]))) = some index := by
        rw [run_eq, index_eq]
        exact shownEntry?_reviewing (by omega)
      exact ⟨interval ++ [occurrence], List.prefix_rfl, shown_eq⟩

/-! ## Every history explains its session -/

theorem Gathering.cases_on {data : Bytes} {session : Session}
    (gathering : Gathering data session) :
    (data = [] ∧ session = Session.fresh) ∨ session = Session.collecting data := by
  cases gathering with
  | fresh => exact .inl ⟨rfl, rfl⟩
  | collecting data => exact .inr rfl

theorem Gathering.unique {first second : Bytes} {session : Session}
    (one : Gathering first session) (other : Gathering second session) : first = second := by
  cases one with
  | fresh =>
      cases other with
      | fresh => rfl
  | collecting data =>
      cases other with
      | collecting data => rfl

theorem Explains.of_fresh {history : List Occurrence}
    (run_eq : fresh.run secret history = fresh) : Explains secret history fresh := by
  apply Explains.ofFragments (List.append_nil history).symm
  · exact SinceIdle.start (by rw [run_eq]; rfl)
  · exact .fresh

theorem Explains.of_collecting {history idle since : List Occurrence} {occurrence : Occurrence}
    {data taken : Bytes} (history_eq : history = idle ++ since)
    (sinceIdle : SinceIdle secret idle since)
    (data_eq : (fresh.run secret idle).acceptedData secret since = data)
    (taken_eq : (fresh.run secret history).accepted secret occurrence = taken)
    (next_eq : fresh.run secret (history ++ [occurrence]) = collecting (data ++ taken)) :
    Explains secret (history ++ [occurrence]) (collecting (data ++ taken)) := by
  subst history_eq
  have since_eq : (fresh.run secret idle).acceptedData secret (since ++ [occurrence]) =
      data ++ taken := by
    rw [acceptedData_append, acceptedData_singleton, ← run_append, data_eq, taken_eq]
  rw [List.append_assoc] at next_eq
  apply Explains.ofFragments (List.append_assoc idle since [occurrence])
  · apply sinceIdle.extend
    rw [next_eq]
    exact Phase.noConfusion
  · rw [since_eq]
    exact .collecting (data ++ taken)

theorem Explains.of_turned {history before idle since interval : List Occurrence}
    {opening occurrence : Occurrence} {fragments : Reassembly} {subject : Subject} {plan : Plan}
    {page shown : Nat} (history_eq : history = before ++ opening :: interval)
    (before_eq : before = idle ++ since) (sinceIdle : SinceIdle secret idle since)
    (opens : Opens opening ((fresh.run secret idle).acceptedData secret since)
      fragments subject plan)
    (reviewed : Reviewed secret before opening interval plan (min (page + 1) plan.length))
    (adjacent : shown ≤ page + 1)
    (next_eq : fresh.run secret (history ++ [occurrence]) =
      reviewing fragments { subject, plan, approval := .reviewing shown plan.length }) :
    Explains secret (history ++ [occurrence])
      (reviewing fragments { subject, plan, approval := .reviewing shown plan.length }) := by
  subst history_eq
  rw [List.append_assoc, List.cons_append] at next_eq ⊢
  exact .ofReview rfl before_eq sinceIdle opens (reviewed.extend adjacent next_eq)

theorem Explains.step {history : List Occurrence} {occurrence : Occurrence}
    {session target : Session} (explains : Explains secret history session)
    (run_eq : fresh.run secret history = session)
    (after_eq : session.after secret occurrence = target)
    (step : Step secret occurrence session target) :
    Explains secret (history ++ [occurrence]) target := by
  have next_eq : fresh.run secret (history ++ [occurrence]) = target := by
    rw [run_append, run_eq, run_cons, run_nil, after_eq]
  cases step with
  | ended => exact Explains.of_fresh next_eq
  | unmoved untaken =>
      cases explains with
      | ofFragments history_eq sinceIdle gathering =>
          rcases gathering.cases_on with ⟨_, rfl⟩ | rfl
          · exact Explains.of_fresh next_eq
          · rw [← run_eq] at untaken
            rw [← List.append_nil (acceptedData _ _ _)] at next_eq ⊢
            exact Explains.of_collecting history_eq sinceIdle rfl untaken next_eq
      | ofReview history_eq before_eq sinceIdle opens reviewed =>
          exact Explains.of_turned history_eq before_eq sinceIdle opens reviewed
            (Nat.le_succ _) next_eq
  | gathered gathering taken fits =>
      cases explains with
      | ofFragments history_eq sinceIdle held =>
          rw [← run_eq] at taken
          exact Explains.of_collecting history_eq sinceIdle (held.unique gathering) taken next_eq
      | ofReview => cases gathering
  | opened gathering call pending opens =>
      cases explains with
      | ofFragments history_eq sinceIdle held =>
          rw [← held.unique gathering] at opens
          rw [← run_eq] at pending
          exact .ofReview rfl history_eq sinceIdle opens (.start call pending next_eq)
      | ofReview => cases gathering
  | turned adjacent inside =>
      cases explains with
      | ofFragments history_eq sinceIdle gathering =>
          rcases gathering.cases_on with ⟨_, other⟩ | other
          · cases other
          · cases other
      | ofReview history_eq before_eq sinceIdle opens reviewed =>
          exact Explains.of_turned history_eq before_eq sinceIdle opens reviewed adjacent next_eq

/-- Every history explains the session that it leads to. -/
theorem explains_run (history : List Occurrence) :
    Explains secret history (fresh.run secret history) := by
  induction history using List.reverseRecOn with
  | nil => exact Explains.of_fresh rfl
  | append_singleton earlier occurrence ih =>
      have step : Step secret occurrence (fresh.run secret earlier)
          ((fresh.run secret earlier).after secret occurrence) :=
        (coherent_run secret earlier).step occurrence
      rw [run_append, run_cons, run_nil]
      exact ih.step rfl rfl step

/-! ## Signatures -/

/-- An approval that releases a signature signs what the review was opened for. -/
theorem Opens.signature_cases {opening : Occurrence} {data : Bytes} {fragments : Reassembly}
    {subject : Subject} {plan : Plan} {review : Review} {device : Device} {signature : Block 64}
    (opens : Opens opening data fragments subject plan)
    (released : (reviewing fragments review).release device
        { subject, plan, approval := .approved } = .ok (.response (.signature signature))) :
    (∃ fragment path octets,
        opening.call = .update (.signChunk true fragment) ∧
        data ++ fragment = path.bytes ++ octets ∧
        path.purpose = 0x8000002C ∧ path.coinType = 0x8000018D ∧
        (Transaction.decode octets).result = .ok () ∧
        plan = (Transaction.decode octets).plan ∧
        signature = Ed25519.sign (device.secret path) (Sha2.sha256 octets).toBytes) ∨
      ∃ path hash,
        opening.call = .update (.blindSign (path.bytes ++ hash.toBytes)) ∧
        opening.blindSigning = true ∧
        path.purpose = 0x8000002C ∧ path.coinType = 0x8000018D ∧
        plan = Plan.forBlindHash hash ∧
        signature = Ed25519.sign (device.secret path) hash.toBytes := by
  cases opens with
  | key shows =>
      rw [release_key] at released
      cases released
  | @hash path hash account call allowed =>
      right
      rcases Path.isAccount_iff.mp account with ⟨purpose_eq, coinType_eq⟩
      rw [release_hash _ _ _ account] at released
      cases released
      exact ⟨path, hash, call, allowed, purpose_eq, coinType_eq, rfl, rfl⟩
  | @transaction path data fragment octets account call message fits decoded =>
      left
      rcases Path.isAccount_iff.mp account with ⟨purpose_eq, coinType_eq⟩
      rw [release_transaction _ _ _ account] at released
      cases released
      exact ⟨fragment, path, octets, call, message, purpose_eq, coinType_eq, decoded, rfl, rfl⟩

theorem Reviewed.accepted_opening {before interval : List Occurrence} {opening : Occurrence}
    {plan : Plan} {count : Nat} {last : Bool} {fragment : Bytes}
    (reviewed : Reviewed secret before opening interval plan count)
    (call : opening.call = .update (.signChunk last fragment)) :
    (fresh.run secret before).accepted secret opening = fragment := by
  rcases reviewed.pending with ⟨command, called, pending⟩
  rw [call] at called
  cases called
  exact accepted_of_ok call pending

/-- A signature is released by a confirmation alone, behind a review that one
command opened, that has been on show ever since, and of which every entry was
shown.  Either the command brought the last fragment of a message, and the
signature is that of the transaction in the message, whose plan was reviewed;
or the command brought a hash, with the setting on, and the signature is that
of the hash. -/
theorem signature_follows_whole_review {history : List Occurrence} {setting : Bool}
    {input : Input} {signature : Block 64}
    (released : ((fresh.run secret history).input ⟨secret, setting⟩ input).1 =
      some (.ok (.response (.signature signature)))) :
    input = .confirm ∧ ∃ before opening interval plan,
      history = before ++ opening :: interval ∧
      Reviewed secret before opening interval plan plan.length ∧
      ((∃ idle since fragment path octets,
          before = idle ++ since ∧ SinceIdle secret idle since ∧
          opening.call = .update (.signChunk true fragment) ∧
          (fresh.run secret idle).acceptedData secret (since ++ [opening]) =
            path.bytes ++ octets ∧
          path.purpose = 0x8000002C ∧ path.coinType = 0x8000018D ∧
          (Transaction.decode octets).result = .ok () ∧
          plan = (Transaction.decode octets).plan ∧
          signature = Ed25519.sign (secret path) (Sha2.sha256 octets).toBytes) ∨
        ∃ path hash,
          opening.call = .update (.blindSign (path.bytes ++ hash.toBytes)) ∧
          opening.blindSigning = true ∧
          path.purpose = 0x8000002C ∧ path.coinType = 0x8000018D ∧
          plan = Plan.forBlindHash hash ∧
          signature = Ed25519.sign (secret path) hash.toBytes) := by
  have explained : Explains secret history (fresh.run secret history) := explains_run history
  generalize fresh.run secret history = session at explained released
  cases explained with
  | ofFragments history_eq sinceIdle gathering =>
      have other : session.phase ≠ .reviewing := by
        rcases gathering.cases_on with ⟨_, rfl⟩ | rfl
        · exact Phase.noConfusion
        · exact Phase.noConfusion
      rw [input_of_not_reviewing _ other] at released
      cases released
  | @ofReview before idle since interval opening fragments subject plan page history_eq before_eq
      sinceIdle opens reviewed =>
      rcases input_eq_ok _ released with ⟨confirmed, last, release_eq⟩
      have whole : min (page + 1) plan.length = plan.length := by omega
      rw [whole] at reviewed
      refine ⟨confirmed, before, opening, interval, plan, history_eq, reviewed, ?_⟩
      rcases opens.signature_cases release_eq with
        ⟨fragment, path, octets, call, message, signed⟩ | signed
      · left
        have data_eq : (fresh.run secret idle).acceptedData secret (since ++ [opening]) =
            path.bytes ++ octets := by
          rw [acceptedData_append, acceptedData_singleton, ← run_append, ← before_eq,
            reviewed.accepted_opening call, message]
        exact ⟨idle, since, fragment, path, octets, before_eq, sinceIdle, call, data_eq, signed⟩
      · right
        exact signed

theorem signature_after_interruptedStart :
    let secret : Path → Block 32 := fun _ => Vector.replicate 32 7
    let octets := Transaction.restrictedKey.encode
    let plan := (Transaction.decode octets).plan
    let history := interruptedStart ++
      ⟨true, .update (.signChunk true (restrictedKeyMessage.drop 7))⟩ ::
        List.replicate plan.length ⟨false, .input .next⟩
    ((fresh.run secret history).input ⟨secret, false⟩ .confirm).1 =
        some (.ok (.response (.signature
          (Ed25519.sign (secret (Path.ofAccount 3)) (Sha2.sha256 octets).toBytes)))) ∧
      ∃ before opening interval plan, history = before ++ opening :: interval ∧
        Reviewed secret before opening interval plan plan.length := by
  intro secret octets plan history
  have started : (offeredData interruptedStart).length ≤ maxMessage := by
    rw [offeredData_interruptedStart]
    exact Nat.le_trans (List.length_take_le _ _) (by decide)
  have opened : (fresh.run secret interruptedStart).after secret
        ⟨true, .update (.signChunk true (restrictedKeyMessage.drop 7))⟩ =
      reviewing { stage := .complete, buffer := restrictedKeyMessage }
        (Review.start (.signature (Path.ofAccount 3) .transaction) plan) := by
    have asked : reviewOf restrictedKeyMessage =
        .ok (Review.start (.signature (Path.ofAccount 3) .transaction) plan) := by
      rw [restrictedKeyMessage, reviewOf_append]
      exact reviewUnder_eq_ok_iff.mpr ⟨by decide, decode_result_restrictedKey, rfl⟩
    rw [after_update, update_run_preparatory _ interruptedStart_preparatory started,
      offeredData_interruptedStart, List.take_append_drop,
      received_last length_restrictedKeyMessage, completed_of_ok asked]
  have turned : fresh.run secret history =
      reviewing { stage := .complete, buffer := restrictedKeyMessage }
        { subject := .signature (Path.ofAccount 3) .transaction, plan
          approval := .reviewing plan.length plan.length } := by
    rw [run_append, run_cons, opened, Review.start, Approval.start,
      run_replicate_next _ _ _ _ _ (Nat.zero_le _), Nat.zero_add, Nat.min_self]
  have released : ((fresh.run secret history).input ⟨secret, false⟩ .confirm).1 =
      some (.ok (.response (.signature
        (Ed25519.sign (secret (Path.ofAccount 3)) (Sha2.sha256 octets).toBytes)))) := by
    rw [turned, input_confirm, restrictedKeyMessage, release_transaction _ _ _ (by decide)]
  obtain ⟨_, before, opening, interval, shown, history_eq, reviewed, _⟩ :=
    signature_follows_whole_review released
  exact ⟨released, before, opening, interval, shown, history_eq, reviewed⟩

end Session

end NearSigner
