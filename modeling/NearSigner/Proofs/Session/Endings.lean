import NearSigner.Proofs.Session.Agreement
import NearSigner.Proofs.Session.Isolation

/-!
# The end of a review

A review ends when the user rejects it, or confirms it behind the last entry.
The answer then is the one that the review is about: all that it takes has been
there since the review was opened, so nothing can go wrong by then.
-/

namespace NearSigner

namespace Session

variable {secret : Path → Block 32} {session : Session} {fragments : Reassembly}
  {subject : Subject} {plan : Plan} {page : Nat}

/-- The setting for the signing of hashes plays no part in what an approval
releases. -/
theorem Released.of_setting {before now : Bool} {response : Response}
    (released : Released ⟨secret, before⟩ fragments subject response) :
    Released ⟨secret, now⟩ fragments subject response := by
  cases released with
  | key key => exact .key key
  | hash account hash => exact .hash account hash
  | transaction account => exact .transaction account

/-- Every review has one response, which its approval releases. -/
theorem Shows.exists_response (shows : Shows fragments subject plan) (secret : Path → Block 32)
    (review : Review) :
    ∃ response, ∀ setting, Released ⟨secret, setting⟩ fragments subject response ∧
      (reviewing fragments review).release ⟨secret, setting⟩
        { subject, plan, approval := .approved } = .ok (.response response) := by
  rcases shows.exists_released ⟨secret, false⟩ review with ⟨response, released, release_eq⟩
  exact ⟨response, fun setting => ⟨released.of_setting, release_eq⟩⟩

/-- An input that does not end the review turns to another page, and to nothing
else. -/
theorem input_of_goesOn (device : Device) (inside : page ≤ plan.length) {input : Input}
    (unrejected : input ≠ .reject) (unconfirmed : ¬(input = .confirm ∧ page = plan.length)) :
    ∃ shown : Nat, (shown : Int) = max 0 (min (page + input.turn) plan.length) ∧
      (reviewing fragments
          { subject, plan, approval := .reviewing page plan.length }).input device input =
        (none, reviewing fragments
          { subject, plan, approval := .reviewing shown plan.length }) := by
  rcases Approval.next_of_goesOn inside unrejected unconfirmed with ⟨shown, next_eq, _, shown_eq⟩
  exact ⟨shown, shown_eq, input_of_turned device fragments subject plan next_eq⟩

/-- A review is ended by a rejection, with the refusal that says so, or by an
answer. -/
theorem Coherent.refused_by_rejection (coherent : Coherent session) {device : Device}
    {input : Input} {refusal : Refusal}
    (refused : (session.input device input).1 = some (.error refusal)) :
    input = .reject ∧ refusal = .userRejected := by
  have taken := coherent.taken device input
  generalize session.input device input = outcome at taken refused
  cases taken with
  | ignored outside => cases refused
  | rejected rejects =>
      cases refused
      exact ⟨rejects, rfl⟩
  | approved confirms released => cases refused
  | turned turns inside adjacent shownInside => cases refused

/-- Turning over what is left of a review and confirming it gives its answer. -/
theorem input_confirm_after_nexts {device : Device} {answer : Answer}
    (inside : page ≤ plan.length)
    (released : ∀ review, (reviewing fragments review).release device
      { subject, plan, approval := .approved } = .ok answer)
    (settings : List Bool) (enough : plan.length - page ≤ settings.length) :
    ((reviewing fragments { subject, plan, approval := .reviewing page plan.length }).run secret
        (settings.map fun setting => ⟨setting, .input .next⟩)).input device .confirm =
      (some (.ok answer), fresh) := by
  have last : min (page + settings.length) plan.length = plan.length := by omega
  rw [run_nexts secret settings fragments subject plan inside, last, input_confirm, released]

/-- A review that can be reached ends in its rejection or in its own answer,
whatever the setting is by then.  A rejection always ends it and is reported as
such; a confirmation ends it when no entry is on show, with the key or the
signature that the review is about; and any other input turns to another page at
most.  No other refusal occurs, the session is fresh after the end, and turning
over what is left leads to the answer. -/
theorem reviews_end_in_rejection_or_answer (reachable : Reachable secret session)
    (underReview : session.phase = .reviewing) :
    ∃ (fragments : Reassembly) (subject : Subject) (plan : Plan) (page : Nat)
      (response : Response),
      session = reviewing fragments { subject, plan, approval := .reviewing page plan.length } ∧
      page ≤ plan.length ∧
      ∀ setting, let device : Device := ⟨secret, setting⟩
        Released device fragments subject response ∧
        session.release device { subject, plan, approval := .approved } =
          .ok (.response response) ∧
        session.input device .reject = (some (.error .userRejected), fresh) ∧
        (session.shownEntry? = none →
          session.input device .confirm = (some (.ok (.response response)), fresh)) ∧
        (∀ input : Input, input ≠ .reject → ¬(input = .confirm ∧ session.shownEntry? = none) →
          ∃ shown : Nat, (shown : Int) = max 0 (min (page + input.turn) plan.length) ∧
            session.input device input = (none, reviewing fragments
              { subject, plan, approval := .reviewing shown plan.length })) ∧
        (∀ input refusal, (session.input device input).1 = some (.error refusal) →
          input = .reject ∧ refusal = .userRejected) ∧
        (∀ input result, (session.input device input).1 = some result →
          (session.input device input).2 = fresh) ∧
        ∀ settings : List Bool, plan.length - page ≤ settings.length →
          (session.run secret (settings.map fun setting => ⟨setting, .input .next⟩)).input
              device .confirm = (some (.ok (.response response)), fresh) := by
  have coherent : Coherent session := reachable.coherent
  rcases coherent.exists_reviewing underReview with
    ⟨fragments, subject, plan, page, shows, inside, rfl⟩
  rcases shows.exists_response secret { subject, plan, approval := .approved } with
    ⟨response, responds⟩
  refine ⟨fragments, subject, plan, page, response, rfl, inside, fun setting => ?_⟩
  intro device
  rcases responds setting with ⟨released, release_eq⟩
  constructor
  · exact released
  constructor
  · exact release_eq
  constructor
  · rfl
  constructor
  · intro unshown
    obtain rfl := (shownEntry?_reviewing_eq_none_iff inside).mp unshown
    rw [input_confirm]
    exact congrArg (fun result => (some result, fresh)) release_eq
  constructor
  · intro input unrejected unconfirmed
    rw [shownEntry?_reviewing_eq_none_iff inside] at unconfirmed
    exact input_of_goesOn device inside unrejected unconfirmed
  constructor
  · intro input refusal refused
    exact coherent.refused_by_rejection refused
  constructor
  · intro input result ended
    exact input_ended ended
  · intro settings enough
    exact input_confirm_after_nexts inside (fun _ => release_eq) settings enough

/-- A hash that is under review is signed once the user has turned its one page and
confirms, even if the setting has been taken back. -/
theorem review_of_hash_ends_in_signature :
    let secret : Path → Block 32 := fun _ => Vector.replicate 32 7
    let hash : Block 32 := Vector.replicate 32 9
    let command : Command := .blindSign ((Path.ofAccount 3).bytes ++ hash.toBytes)
    let session := fresh.run secret [⟨true, .update command⟩]
    session.phase = .reviewing ∧
    (session.run secret [⟨false, .input .next⟩]).input ⟨secret, false⟩ .confirm =
      (some (.ok (.response (.signature
        (Ed25519.sign (secret (Path.ofAccount 3)) hash.toBytes)))), fresh) := by
  intro secret hash command session
  have reachable : Reachable secret session := ⟨_, rfl⟩
  have session_eq : session = reviewing .empty (Review.start
      (.signature (Path.ofAccount 3) (.hash hash)) (Plan.forBlindHash hash)) :=
    congrArg Prod.snd (update_hash ⟨secret, true⟩ rfl (by decide) hash)
  have underReview : session.phase = .reviewing := congrArg Session.phase session_eq
  obtain ⟨fragments, subject, plan, page, response, reviewed, inside, ended⟩ :=
    reviews_end_in_rejection_or_answer reachable underReview
  obtain ⟨released, _, _, _, _, _, _, completed⟩ := ended false
  rw [session_eq] at reviewed
  cases reviewed
  cases released with
  | hash account hash => exact ⟨underReview, completed [false] (by decide)⟩

end Session

end NearSigner
