import NearSigner.Proofs.Session.Outcomes

/-!
# The coherence of a session

The phase of a session, its fragments and its review always fit together.  A
session that is idle holds nothing; one that awaits more holds no review; and
the plan under review is the one that belongs to what an approval would
release.
-/

namespace NearSigner

namespace Session

/-- How a call changes a coherent session. -/
inductive Step (secret : Path → Block 32) (occurrence : Occurrence) : Session → Session → Prop
  | unmoved {session : Session} (untaken : session.accepted secret occurrence = []) :
      Step secret occurrence session session
  | ended {session : Session} : Step secret occurrence session fresh
  | gathered {session : Session} {data fragment : Bytes} (gathering : Gathering data session)
      (taken : session.accepted secret occurrence = fragment)
      (fits : (data ++ fragment).length ≤ maxMessage) :
      Step secret occurrence session (collecting (data ++ fragment))
  | opened {session : Session} {data : Bytes} {fragments : Reassembly} {subject : Subject}
      {plan : Plan} {command : Command} (gathering : Gathering data session)
      (call : occurrence.call = .update command)
      (pending : (session.update (occurrence.device secret) command).1 = .ok .pending)
      (opens : Opens occurrence data fragments subject plan) :
      Step secret occurrence session (reviewing fragments (Review.start subject plan))
  | turned {fragments : Reassembly} {subject : Subject} {plan : Plan} {page shown : Nat}
      (adjacent : shown ≤ page + 1) (inside : page ≤ plan.length → shown ≤ plan.length) :
      Step secret occurrence
        (reviewing fragments { subject, plan, approval := .reviewing page plan.length })
        (reviewing fragments { subject, plan, approval := .reviewing shown plan.length })

variable {secret : Path → Block 32} {occurrence : Occurrence} {session : Session}

namespace Step

variable {command : Command} {input : Input}

theorem of_update (coherent : Coherent session) (call : occurrence.call = .update command) :
    Step secret occurrence session (session.after secret occurrence) := by
  rcases occurrence with ⟨setting, made⟩
  obtain rfl : made = .update command := call
  rw [after_update]
  have updated := coherent.updated ⟨secret, setting⟩ command
  generalize outcome_eq : session.update ⟨secret, setting⟩ command = outcome at updated
  have result_eq := congrArg Prod.fst outcome_eq
  cases updated with
  | nothing asked => exact .unmoved (accepted_of_other (by simp [asked]))
  | version asked => exact .unmoved (accepted_of_other (by simp [asked]))
  | busy active underReview => exact .unmoved (accepted_of_error rfl result_eq)
  | refused active outside ofCommand => exact .ended
  | gathered gathering asked fits =>
      subst asked
      exact .gathered gathering (accepted_of_ok rfl result_eq) fits
  | disclosed account asked => exact .ended
  | opened gathering opens account concerns under =>
      exact .opened gathering rfl result_eq opens

theorem of_input (coherent : Coherent session) (call : occurrence.call = .input input) :
    Step secret occurrence session (session.after secret occurrence) := by
  have after_eq : session.after secret occurrence =
      (session.input (occurrence.device secret) input).2 := by
    rw [after, call]
  have untaken : session.accepted secret occurrence = [] := accepted_of_other (by simp [call])
  rw [after_eq]
  have taken := coherent.taken (occurrence.device secret) input
  generalize session.input (occurrence.device secret) input = outcome at taken
  cases taken with
  | ignored outside => exact .unmoved untaken
  | rejected rejects => exact .ended
  | approved confirms released => exact .ended
  | turned turns inside adjacent shownInside => exact .turned adjacent fun _ => shownInside

theorem of_fail (coherent : Coherent session) {refusal : Refusal}
    (call : occurrence.call = .fail refusal) :
    Step secret occurrence session (session.after secret occurrence) := by
  have after_eq : session.after secret occurrence = (session.fail refusal).2 := by
    rw [after, call]
  have untaken : session.accepted secret occurrence = [] := accepted_of_other (by simp [call])
  rw [after_eq]
  cases coherent with
  | reviewing shows inside => exact .unmoved untaken
  | _ => exact .ended

end Step

/-- Every call changes a coherent session in one of five ways. -/
theorem Coherent.step (coherent : Coherent session) (occurrence : Occurrence) :
    Step secret occurrence session (session.after secret occurrence) := by
  rcases call : occurrence.call with command | input | refusal | _
  · exact .of_update coherent call
  · exact .of_input coherent call
  · exact .of_fail coherent call
  · rw [after, call]
    exact .ended

theorem Step.coherent {target : Session} (step : Step secret occurrence session target)
    (coherent : Coherent session) : Coherent target := by
  cases step with
  | unmoved untaken => exact coherent
  | ended => exact .fresh
  | gathered gathering taken fits => exact .collecting fits
  | opened gathering call pending opens => exact .reviewing opens.shows (Nat.zero_le _)
  | turned adjacent inside =>
      cases coherent with
      | reviewing shows pageInside => exact .reviewing shows (inside pageInside)

theorem coherent_run (secret : Path → Block 32) (history : List Occurrence) :
    Coherent (fresh.run secret history) := by
  suffices general : ∀ session, Coherent session → Coherent (session.run secret history) from
    general fresh .fresh
  induction history with
  | nil =>
      intro session coherent
      exact coherent
  | cons occurrence later ih =>
      intro session coherent
      exact ih _ ((coherent.step occurrence).coherent coherent)

theorem Reachable.coherent {session : Session} (reachable : Reachable secret session) :
    Coherent session := by
  rcases reachable with ⟨history, rfl⟩
  exact coherent_run secret history

/-! ## What can be seen between calls -/

theorem Shows.length_pos {fragments : Reassembly} {subject : Subject} {plan : Plan}
    (shows : Shows fragments subject plan) : 1 ≤ plan.length := by
  cases shows with
  | key key => exact Nat.le_refl 1
  | walletId key => exact Nat.le_refl 1
  | hash account hash => exact Nat.le_refl 1
  | @transaction path octets account fits decoded =>
      rcases Transaction.exists_of_decode_ok decoded with ⟨transaction, _, _, fields_eq⟩
      rw [Decoded.plan, fields_eq, Plan.ofFields, Transaction.fields]
      simp [Plan.ofList, Plan.length, Field.contents]

theorem Shows.isAccount {fragments : Reassembly} {path : Path} {payload : Payload} {plan : Plan}
    (shows : Shows fragments (.signature path payload) plan) : path.isAccount = true := by
  cases shows with
  | hash account hash => exact account
  | transaction account fits decoded => exact account

namespace Coherent

theorem phase_cases (coherent : Coherent session) :
    session.phase = .idle ∨ session.phase = .awaitingMore ∨ session.phase = .reviewing := by
  cases coherent with
  | fresh => exact .inl rfl
  | collecting fits => exact .inr (.inl rfl)
  | reviewing shows inside => exact .inr (.inr rfl)

theorem eq_fresh (coherent : Coherent session) (idle : session.phase = .idle) :
    session = Session.fresh := by
  cases coherent with
  | fresh => rfl
  | _ => cases idle

theorem exists_collecting (coherent : Coherent session) (awaiting : session.phase = .awaitingMore) :
    ∃ data : Bytes, data.length ≤ maxMessage ∧ session = Session.collecting data := by
  cases coherent with
  | @collecting data fits => exact ⟨data, fits, rfl⟩
  | _ => cases awaiting

theorem exists_reviewing (coherent : Coherent session) (underReview : session.phase = .reviewing) :
    ∃ fragments subject plan page, Shows fragments subject plan ∧ page ≤ plan.length ∧
      session = Session.reviewing fragments
        { subject, plan, approval := .reviewing page plan.length } := by
  cases coherent with
  | @reviewing fragments subject plan page shows inside =>
      exact ⟨fragments, subject, plan, page, shows, inside, rfl⟩
  | _ => cases underReview

theorem review?_isSome_iff (coherent : Coherent session) :
    session.review?.isSome = true ↔ session.phase = .reviewing := by
  cases coherent with
  | reviewing shows inside => exact iff_of_true rfl rfl
  | _ => exact iff_of_false Bool.false_ne_true Phase.noConfusion

theorem approval_eq_idle_iff (coherent : Coherent session) :
    session.approval = .idle ↔ session.phase ≠ .reviewing := by
  cases coherent with
  | reviewing shows inside => exact iff_of_false Approval.noConfusion (fun other => other rfl)
  | _ => exact iff_of_true rfl Phase.noConfusion

theorem shownEntry?_eq_none_iff (coherent : Coherent session) :
    session.shownEntry? = none ↔
      session.phase ≠ .reviewing ∨ ∃ pages, session.approval = .reviewing pages pages := by
  cases coherent with
  | @reviewing fragments subject plan page shows inside =>
      rw [shownEntry?_reviewing_eq_none_iff inside]
      constructor
      · rintro rfl
        exact .inr ⟨plan.length, rfl⟩
      · rintro (other | ⟨pages, approval_eq⟩)
        · exact absurd rfl other
        · cases approval_eq
          rfl
  | _ => exact iff_of_true rfl (.inl Phase.noConfusion)

theorem exists_entry (coherent : Coherent session) {index : Nat}
    (shown : session.shownEntry? = some index) :
    ∃ plan entry, session.review? = some plan ∧ plan.get? index = some entry := by
  cases coherent with
  | @reviewing fragments subject plan page shows inside =>
      change (if page < plan.length then some page else none) = some index at shown
      by_cases before : page < plan.length
      · rw [if_pos before] at shown
        cases shown
        exact ⟨plan, plan.entries[index], rfl, List.getElem?_eq_getElem before⟩
      · rw [if_neg before] at shown
        cases shown
  | _ => cases shown

end Coherent

/-- After every history the phase, the fragments and the review of a session fit
together: an idle session holds nothing, one that awaits more holds no review,
and one under review has a page of a plan on show that belongs to the subject. -/
theorem parts_agree_after_every_run (secret : Path → Block 32) (history : List Occurrence) :
    let session := fresh.run secret history
    (session.phase = .idle ∨ session.phase = .awaitingMore ∨ session.phase = .reviewing) ∧
    (session.phase = .idle → session.fragments = .empty ∧ session.pending = none) ∧
    (session.phase = .awaitingMore →
      session.fragments.stage = .accumulating ∧ session.fragments.buffer.length ≤ 670 ∧
        session.pending = none) ∧
    (session.phase = .reviewing → ∃ subject plan page,
      session.pending = some { subject, plan, approval := .reviewing page plan.length } ∧
        1 ≤ plan.length ∧ page ≤ plan.length ∧ Shows session.fragments subject plan ∧
        ∀ path payload, subject = .signature path payload →
          path.purpose = 0x8000002C ∧ path.coinType = 0x8000018D) ∧
    (session.review?.isSome = true ↔ session.phase = .reviewing) ∧
    (session.approval = .idle ↔ session.phase ≠ .reviewing) ∧
    (session.shownEntry? = none ↔
      session.phase ≠ .reviewing ∨ ∃ pages, session.approval = .reviewing pages pages) ∧
    (∀ index, session.shownEntry? = some index →
      ∃ plan entry, session.review? = some plan ∧ plan.get? index = some entry) := by
  have coherent := coherent_run secret history
  generalize fresh.run secret history = session at coherent
  constructor
  · exact coherent.phase_cases
  constructor
  · intro idle
    obtain rfl := coherent.eq_fresh idle
    exact ⟨rfl, rfl⟩
  constructor
  · intro awaiting
    rcases coherent.exists_collecting awaiting with ⟨data, fits, rfl⟩
    exact ⟨rfl, fits, rfl⟩
  constructor
  · intro underReview
    rcases coherent.exists_reviewing underReview with
      ⟨fragments, subject, plan, page, shows, inside, rfl⟩
    have inNamespace : ∀ path payload, subject = .signature path payload →
        path.purpose = 0x8000002C ∧ path.coinType = 0x8000018D := by
      rintro path payload rfl
      exact Path.isAccount_iff.mp shows.isAccount
    exact ⟨subject, plan, page, rfl, shows.length_pos, inside, shows, inNamespace⟩
  · exact ⟨coherent.review?_isSome_iff, coherent.approval_eq_idle_iff,
      coherent.shownEntry?_eq_none_iff, fun index shown => coherent.exists_entry shown⟩

end Session

end NearSigner
