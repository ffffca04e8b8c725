import NearSigner.Proofs.Review.Walk
import NearSigner.Proofs.Session.Exclusion

/-!
# The persistence of a review

A review that has been opened goes on until the user ends it or the session is
reset.  The commands, failures and frames in between are refused, or are answered
without an effect, and the inputs turn a page; nothing has an effect on what the
review is about.  So the response that the review was opened for is the one that
its approval releases, and nothing else releases it.
-/

namespace NearSigner

namespace Session

variable (secret : Path → Block 32)

/-- What can happen to a session short of a reset, with the inputs of the user in
order and the session that it leads to.  The version of the application is asked for
with room for the reply. -/
inductive Interlude (session : Session) : List Input → Session → Prop
  | start : Interlude session [] session
  | update {inputs : List Input} {held : Session} (earlier : Interlude session inputs held)
      (setting : Bool) (command : Command) :
      Interlude session inputs (held.update ⟨secret, setting⟩ command).2
  | fail {inputs : List Input} {held : Session} (earlier : Interlude session inputs held)
      (refusal : Refusal) : Interlude session inputs (held.fail refusal).2
  | frame {inputs : List Input} {held : Session} (earlier : Interlude session inputs held)
      (setting : Bool) (capacity : Nat) {octets : Bytes}
      (roomy : AsksForVersion octets → 3 ≤ capacity) :
      Interlude session inputs (held.handleFrame ⟨secret, setting⟩ capacity octets).2
  | input {inputs : List Input} {held : Session} (earlier : Interlude session inputs held)
      (setting : Bool) (input : Input) :
      Interlude session (inputs ++ [input]) (held.input ⟨secret, setting⟩ input).2

/-- An interlude whose inputs neither approve nor reject a review of so many
entries. -/
structure LeavesOpen (pages : Nat) (session : Session) (inputs : List Input) (held : Session) :
    Prop where
  interlude : Interlude secret session inputs held
  goesOn : ∃ page, (Approval.start pages).run inputs = .reviewing page pages

/-- The session keeps a response behind the review of a plan.  As long as the review
is open, the plan is on show, frames are not allowed, and a command has no response
but the version of the application.  An approval releases the response, a rejection
drops it, and the session is fresh then; no other input has an answer. -/
structure Guards (session : Session) (plan : Plan) (response : Response) : Prop where
  underReview : ∀ inputs held, LeavesOpen secret plan.length session inputs held →
    held.phase = .reviewing ∧ held.review? = some plan
  excludes : ∀ inputs held, LeavesOpen secret plan.length session inputs held →
    ∀ setting capacity octets, ¬AsksForVersion octets →
      held.handleFrame ⟨secret, setting⟩ capacity octets = (.complete .commandNotAllowed [], held)
  approved : ∀ inputs held, LeavesOpen secret plan.length session inputs held →
    ∀ setting input, (Approval.start plan.length).run (inputs ++ [input]) = .approved →
      held.input ⟨secret, setting⟩ input = (some (.ok (.response response)), fresh)
  rejected : ∀ inputs held, LeavesOpen secret plan.length session inputs held →
    ∀ setting input, (Approval.start plan.length).run (inputs ++ [input]) = .rejected →
      held.input ⟨secret, setting⟩ input = (some (.error .userRejected), fresh)
  withholds : ∀ inputs held, LeavesOpen secret plan.length session inputs held →
    ∀ setting command other,
      (held.update ⟨secret, setting⟩ command).1 = .ok (.response other) →
        other = .version applicationVersion
  unapproved : ∀ inputs held, LeavesOpen secret plan.length session inputs held →
    ∀ setting input answer, (held.input ⟨secret, setting⟩ input).1 = some (.ok answer) →
      (Approval.start plan.length).run (inputs ++ [input]) = .approved

/-- A command has been put off: its response waits for the approval of a plan, which
the user is shown. -/
structure PutsOff (outcome : Except Refusal Answer × Session) (plan : Plan)
    (response : Response) : Prop where
  pending : outcome.1 = .ok .pending
  shows : outcome.2.review? = some plan
  guards : Guards secret outcome.2 plan response

variable {secret} {fragments : Reassembly} {subject : Subject} {plan : Plan} {page : Nat}
  {inputs : List Input} {session held : Session}

theorem update_snd_of_reviewing (underReview : session.phase = .reviewing) (device : Device)
    (command : Command) : (session.update device command).2 = session := by
  by_cases passive : command.Passive
  · rcases update_passive device passive session with ⟨answer, updated⟩
    rw [updated]
  · rw [update_of_reviewing device underReview passive]

/-- A command during a review is answered with the version, if with a response. -/
theorem version_of_update_reviewing (underReview : session.phase = .reviewing) {device : Device}
    {command : Command} {response : Response}
    (answered : (session.update device command).1 = .ok (.response response)) :
    response = .version applicationVersion := by
  by_cases passive : command.Passive
  · cases passive with
    | nothing => cases answered
    | getConfiguration =>
        cases answered
        rfl
  · rw [update_of_reviewing device underReview passive] at answered
    cases answered

/-- An interlude that leaves a review open has turned pages, and done nothing else. -/
theorem Interlude.eq_reviewing
    (interlude : Interlude secret (reviewing fragments (Review.start subject plan)) inputs held)
    (goesOn : (Approval.start plan.length).run inputs = .reviewing page plan.length) :
    held = reviewing fragments { subject, plan, approval := .reviewing page plan.length } := by
  induction interlude generalizing page with
  | start =>
      cases goesOn
      rfl
  | update earlier setting command ih =>
      obtain rfl := ih goesOn
      exact update_snd_of_reviewing rfl _ command
  | fail earlier refusal ih =>
      obtain rfl := ih goesOn
      rw [fail_of_reviewing rfl]
  | frame earlier setting capacity roomy ih =>
      obtain rfl := ih goesOn
      exact handleFrame_of_reviewing _ roomy rfl
  | input earlier setting given ih =>
      rw [Approval.run_concat] at goesOn
      rcases Approval.next_eq_reviewing goesOn with ⟨before, run_eq, _⟩
      obtain rfl := ih run_eq
      rw [run_eq] at goesOn
      rw [input_of_turned _ fragments subject plan goesOn]

/-- A session that has opened a review guards what the approval of the review would
release at once. -/
theorem guards_start {response : Response}
    (releases : ∀ setting review, (reviewing fragments review).release ⟨secret, setting⟩
      { subject, plan, approval := .approved } = .ok (.response response)) :
    Guards secret (reviewing fragments (Review.start subject plan)) plan response where
  underReview inputs held := by
    rintro ⟨interlude, page, goesOn⟩
    rw [interlude.eq_reviewing goesOn]
    exact ⟨rfl, rfl⟩
  excludes inputs held := by
    rintro ⟨interlude, page, goesOn⟩ setting capacity octets other
    rw [interlude.eq_reviewing goesOn]
    exact handleFrame_refused other _ capacity rfl
  approved inputs held := by
    rintro ⟨interlude, page, goesOn⟩ setting input approves
    rw [Approval.run_concat, goesOn] at approves
    rw [interlude.eq_reviewing goesOn, input_reviewing]
    simp only [Review.next, approves, releases]
  rejected inputs held := by
    rintro ⟨interlude, page, goesOn⟩ setting input rejects
    rw [Approval.run_concat, goesOn] at rejects
    rw [interlude.eq_reviewing goesOn, input_reviewing]
    simp only [Review.next, rejects]
  withholds inputs held := by
    rintro ⟨interlude, page, goesOn⟩ setting command other answered
    rw [interlude.eq_reviewing goesOn] at answered
    exact version_of_update_reviewing rfl answered
  unapproved inputs held := by
    rintro ⟨interlude, page, goesOn⟩ setting input answer answered
    rw [interlude.eq_reviewing goesOn] at answered
    rcases input_eq_ok _ answered with ⟨rfl, rfl, _⟩
    rw [Approval.run_concat, goesOn]
    exact if_pos rfl

theorem putsOff_start {response : Response}
    (releases : ∀ setting review, (reviewing fragments review).release ⟨secret, setting⟩
      { subject, plan, approval := .approved } = .ok (.response response)) :
    PutsOff secret (.ok .pending, reviewing fragments (Review.start subject plan)) plan response :=
  ⟨rfl, rfl, guards_start releases⟩

end Session

end NearSigner
