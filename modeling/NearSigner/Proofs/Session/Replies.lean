import Mathlib.Data.List.Induction
import NearSigner.Proofs.Session.Results

/-!
# Replies to the host

A command whose reply is put off is outstanding until the reply to an input
comes, or until the session is lost because a reply does not fit its buffer.
What is outstanding is followed from the replies alone; it is always the review
in progress, and the reply that ends it answers the command that opened it.
-/

namespace NearSigner

/-- A turn and the reply to it. -/
structure Exchange where
  turn : Turn
  reply : Option Reply
deriving DecidableEq, Repr

/-- Whether a command is outstanding after an exchange.  A reply that is put off
makes the command outstanding, and a reply to an input or the loss of the
session makes an end of it. -/
def Exchange.outstanding (before : Bool) (exchange : Exchange) : Bool :=
  match exchange.turn.isInput, exchange.reply with
  | true, some _ => false
  | false, some .deferred => true
  | false, some (.complete .internal _) => false
  | _, _ => before

/-- Whether a command is outstanding at the end of some exchanges. -/
def Exchange.outstandingAfter (exchanges : List Exchange) : Bool :=
  exchanges.foldl Exchange.outstanding false

theorem Turn.isInput_of_given {turn : Turn} {capacity : Nat} {input : Input}
    (given : turn.stimulus = .input capacity input) : turn.isInput = true := by
  rw [isInput, given]

theorem Exchange.outstanding_of_isInput {turn : Turn} (byUser : turn.isInput = true)
    (before : Bool) (reply : Reply) : outstanding before ⟨turn, some reply⟩ = false := by
  simp only [outstanding, byUser]

theorem Exchange.outstanding_of_ne_internal {turn : Turn} (byHost : turn.isInput = false)
    {status : Status} (other : status ≠ .internal) (before : Bool) (payload : Bytes) :
    outstanding before ⟨turn, some (.complete status payload)⟩ = before := by
  simp only [outstanding, byHost]
  cases status with
  | internal => exact absurd rfl other
  | _ => rfl

theorem Answer.length_payload (answer : Answer) :
    answer.payload.length ∈ [0, 3, 32, 64] := by
  cases answer with
  | done => simp [payload]
  | pending => simp [payload]
  | response value =>
      cases value with
      | version value => simp [payload, Response.payload, Version.bytes]
      | publicKey key => simp [payload, Response.payload]
      | signature value => simp [payload, Response.payload]

theorem Refusal.status_eq_internal_iff (refusal : Refusal) :
    refusal.status = .internal ↔ refusal = .encodingFailed := by
  cases refusal <;> simp [status]

namespace Session

variable {secret : Path → Block 32} {session : Session} {turn : Turn}

/-! ## Single replies -/

/-- Success is reported with the payload of an answer, when that fits. -/
theorem exists_answer_of_success {payload : Bytes}
    (succeeded : (session.respond secret turn).1 = some (.complete .success payload)) :
    ∃ answer, answer ≠ .pending ∧ (session.produce secret turn).1 = some (.ok answer) ∧
      answer.payload.length ≤ turn.capacity ∧ payload = answer.payload := by
  have responded := responded secret session turn
  generalize session.produce secret turn = produced at responded ⊢
  generalize session.respond secret turn = final at responded succeeded
  cases responded with
  | silent next => cases succeeded
  | replied replied =>
      obtain rfl := Option.some.inj succeeded
      cases replied with
      | refused reported => exact absurd reported (Refusal.status_ne_success _)
      | sent settled fits => exact ⟨_, settled, rfl, fits, rfl⟩

theorem payload_eq_nil_of_failure {status : Status} {payload : Bytes}
    (completed : (session.respond secret turn).1 = some (.complete status payload))
    (failed : status ≠ .success) : payload = [] := by
  have responded := responded secret session turn
  generalize session.produce secret turn = produced at responded
  generalize session.respond secret turn = final at responded completed
  cases responded with
  | silent next => cases completed
  | replied replied =>
      obtain rfl := Option.some.inj completed
      cases replied with
      | refused reported => rfl
      | sent settled fits => exact absurd rfl failed
      | overlong settled overlong => rfl

/-- An internal failure is reported for an answer that does not fit, and the
session is given up then. -/
theorem Coherent.exists_overlong (coherent : Coherent session) {payload : Bytes}
    (internal : (session.respond secret turn).1 = some (.complete .internal payload)) :
    (∃ answer, (session.produce secret turn).1 = some (.ok answer) ∧
      turn.capacity < answer.payload.length) ∧
      (session.respond secret turn).2 = Session.fresh := by
  have produced := coherent.produced secret turn
  have responded := responded secret session turn
  generalize session.produce secret turn = outcome at produced responded ⊢
  generalize session.respond secret turn = final at responded internal ⊢
  cases responded with
  | silent next => cases internal
  | replied replied =>
      obtain rfl := Option.some.inj internal
      cases replied with
      | refused reported =>
          exact absurd ((Refusal.status_eq_internal_iff _).mp reported) produced.ne_encodingFailed
      | overlong settled overlong => exact ⟨⟨_, rfl, overlong⟩, rfl⟩

theorem internal_of_overlong {answer : Answer}
    (answered : (session.produce secret turn).1 = some (.ok answer))
    (overlong : turn.capacity < answer.payload.length) :
    (session.respond secret turn).1 = some (.complete .internal []) := by
  have responded := responded secret session turn
  generalize session.produce secret turn = outcome at responded answered
  generalize session.respond secret turn = final at responded ⊢
  cases responded with
  | silent next => cases answered
  | replied replied =>
      obtain rfl := Option.some.inj answered
      cases replied with
      | deferred => exact absurd overlong (Nat.not_lt_zero _)
      | sent settled fits => exact absurd fits (Nat.not_le.mpr overlong)
      | overlong settled overlong => rfl

/-! ## Turns and their replies -/

/-- The reply to a turn in a session, and the session afterwards. -/
inductive Exchanged (secret : Path → Block 32) (turn : Turn) (session : Session) :
    Option Reply × Session → Prop
  | answered {status : Status} {payload : Bytes} {next : Session}
      (byHost : turn.isInput = false) (other : status ≠ .internal)
      (same : next.matter? = session.matter?) :
      Exchanged secret turn session (some (.complete status payload), next)
  | lost (byHost : turn.isInput = false) :
      Exchanged secret turn session (some (.complete .internal []), fresh)
  | opened {path : Path} {next : Session} {subject : Subject} {plan : Plan}
      (asked : session.Asked turn path) (under : subject.Under secret path)
      (outside : session.matter? = none) (begun : next.matter? = some (subject, plan)) :
      Exchanged secret turn session (some .deferred, next)
  | unheard {capacity : Nat} {input : Input} {next : Session}
      (given : turn.stimulus = .input capacity input) (same : next.matter? = session.matter?)
      (goesOn : session.matter?.isSome = true →
        input ≠ .reject ∧ (input = .confirm → session.shownEntry? ≠ none)) :
      Exchanged secret turn session (none, next)
  | rejected {capacity : Nat} (given : turn.stimulus = .input capacity .reject)
      (underReview : session.matter?.isSome = true) :
      Exchanged secret turn session (some (.complete .userRejected []), fresh)
  | approved {capacity : Nat} {subject : Subject} {plan : Plan} {response : Response}
      (given : turn.stimulus = .input capacity .confirm)
      (underReview : session.matter? = some (subject, plan))
      (last : session.shownEntry? = none)
      (released : Released (turn.device secret) session.fragments subject response) :
      Exchanged secret turn session
        (some (if response.payload.length ≤ capacity then .complete .success response.payload
          else .complete .internal []), fresh)

theorem Exchanged.of_answered {result : Except Refusal Answer} {next : Session}
    {final : Reply × Session} (byHost : turn.isInput = false)
    (encodes : result ≠ .error .encodingFailed) (settled : result ≠ .ok .pending)
    (same : next.matter? = session.matter?) (replied : Replied turn.capacity next result final) :
    Exchanged secret turn session (some final.1, final.2) := by
  cases replied with
  | refused reported =>
      apply Exchanged.answered byHost _ same
      rintro rfl
      rw [(Refusal.status_eq_internal_iff _).mp reported] at encodes
      exact encodes rfl
  | deferred => exact absurd rfl settled
  | sent settled fits => exact .answered byHost nofun same
  | overlong settled overlong => exact .lost byHost

theorem Exchanged.of_approved {capacity : Nat} {subject : Subject} {plan : Plan}
    {response : Response} {final : Reply × Session}
    (given : turn.stimulus = .input capacity .confirm)
    (underReview : session.matter? = some (subject, plan)) (last : session.shownEntry? = none)
    (released : Released (turn.device secret) session.fragments subject response)
    (replied : Replied turn.capacity fresh (.ok (.response response)) final) :
    Exchanged secret turn session (some final.1, final.2) := by
  have exchanged := Exchanged.approved given underReview last released
  have capacity_eq : turn.capacity = capacity := by rw [Turn.capacity, given]
  rw [capacity_eq] at replied
  cases replied with
  | sent settled fits =>
      change response.payload.length ≤ capacity at fits
      rw [if_pos fits] at exchanged
      exact exchanged
  | overlong settled overlong =>
      change capacity < response.payload.length at overlong
      rw [if_neg (Nat.not_le.mpr overlong)] at exchanged
      exact exchanged

/-- A turn has one of six outcomes in a coherent session. -/
theorem Coherent.exchanged (coherent : Coherent session) (secret : Path → Block 32)
    (turn : Turn) : Exchanged secret turn session (session.respond secret turn) := by
  have produced := coherent.produced secret turn
  have responded := responded secret session turn
  generalize session.produce secret turn = outcome at produced responded
  generalize session.respond secret turn = final at responded ⊢
  cases produced with
  | answered byHost encodes settled same =>
      cases responded with
      | replied replied => exact .of_answered byHost encodes settled same replied
  | opened asked under outside begun =>
      cases responded with
      | replied replied =>
          cases replied with
          | deferred => exact .opened asked under outside begun
          | sent settled fits => exact absurd rfl settled
          | overlong settled overlong => exact absurd rfl settled
  | unheard given same goesOn =>
      cases responded with
      | silent next => exact .unheard given same goesOn
  | rejected given underReview =>
      cases responded with
      | replied replied =>
          cases replied with
          | refused reported =>
              cases reported
              exact .rejected given underReview
  | approved given underReview last released =>
      cases responded with
      | replied replied => exact .of_approved given underReview last released replied

/-! ## What is outstanding -/

variable (secret) in
/-- The exchanges in the course of a dialogue. -/
def exchanges (session : Session) : List Turn → List Exchange
  | [] => []
  | turn :: later =>
      ⟨turn, (session.respond secret turn).1⟩ ::
        (session.respond secret turn).2.exchanges later

/-- The replies tell whether there is a review after a turn. -/
theorem Coherent.outstanding_respond (coherent : Coherent session) (secret : Path → Block 32)
    (turn : Turn) :
    Exchange.outstanding session.matter?.isSome ⟨turn, (session.respond secret turn).1⟩ =
      (session.respond secret turn).2.matter?.isSome := by
  have exchanged := coherent.exchanged secret turn
  generalize session.respond secret turn = final at exchanged ⊢
  cases exchanged with
  | answered byHost other same =>
      rw [Exchange.outstanding_of_ne_internal byHost other, same]
  | lost byHost =>
      simp only [Exchange.outstanding, byHost]
      rfl
  | opened asked under outside begun =>
      simp only [Exchange.outstanding, asked.isInput_eq_false, begun]
      rfl
  | unheard given same goesOn =>
      simp only [Exchange.outstanding, Turn.isInput_of_given given, same]
  | rejected given underReview =>
      exact Exchange.outstanding_of_isInput (Turn.isInput_of_given given) _ _
  | approved given underReview last released =>
      exact Exchange.outstanding_of_isInput (Turn.isInput_of_given given) _ _

theorem Reachable.outstanding_exchanges (reachable : Reachable secret session)
    (turns : List Turn) :
    (session.exchanges secret turns).foldl Exchange.outstanding session.matter?.isSome =
      (session.converse secret turns).matter?.isSome := by
  induction turns generalizing session with
  | nil => rfl
  | cons turn later ih =>
      rw [exchanges, List.foldl_cons, reachable.coherent.outstanding_respond, converse_cons,
        ih (reachable.respond turn)]

/-- A command is outstanding exactly when there is a review. -/
theorem outstandingAfter_exchanges (secret : Path → Block 32) (turns : List Turn) :
    Exchange.outstandingAfter (fresh.exchanges secret turns) =
      (fresh.converse secret turns).matter?.isSome :=
  Reachable.outstanding_exchanges ⟨[], rfl⟩ turns

/-- A reply is put off by a frame that opens a review. -/
theorem Coherent.opens_of_deferred (coherent : Coherent session)
    (deferred : (session.respond secret turn).1 = some .deferred) :
    turn.isInput = false ∧ session.matter? = none := by
  have exchanged := coherent.exchanged secret turn
  generalize session.respond secret turn = final at exchanged deferred
  cases exchanged with
  | answered byHost other same => cases deferred
  | lost byHost => cases deferred
  | opened asked under outside begun => exact ⟨asked.isInput_eq_false, outside⟩
  | unheard given same goesOn => cases deferred
  | rejected given underReview => cases deferred
  | approved given underReview last released =>
      split at deferred
      · cases deferred
      · cases deferred

/-- The inputs that end the review in progress, and their replies. -/
theorem Coherent.replies_to_input (coherent : Coherent session) {capacity : Nat} {input : Input}
    (given : turn.stimulus = .input capacity input) :
    ((session.respond secret turn).1 = none ∧ (session.matter?.isSome = true →
        input ≠ .reject ∧ (input = .confirm → session.shownEntry? ≠ none))) ∨
    (session.matter?.isSome = true ∧ input = .reject ∧
      (session.respond secret turn).1 = some (.complete .userRejected [])) ∨
    ∃ subject plan response, session.matter? = some (subject, plan) ∧ input = .confirm ∧
      session.shownEntry? = none ∧
      Released (turn.device secret) session.fragments subject response ∧
      (session.respond secret turn).1 = some
        (if response.payload.length ≤ capacity then .complete .success response.payload
          else .complete .internal []) := by
  have exchanged := coherent.exchanged secret turn
  generalize session.respond secret turn = final at exchanged ⊢
  have byUser := Turn.isInput_of_given given
  cases exchanged with
  | answered byHost other same => exact absurd (byUser.symm.trans byHost) nofun
  | lost byHost => exact absurd (byUser.symm.trans byHost) nofun
  | opened asked under outside begun =>
      exact absurd (byUser.symm.trans asked.isInput_eq_false) nofun
  | unheard made same goesOn =>
      left
      cases given.symm.trans made
      exact ⟨rfl, goesOn⟩
  | rejected made underReview =>
      right; left
      cases given.symm.trans made
      exact ⟨underReview, rfl, rfl⟩
  | @approved _ subject plan response made underReview last released =>
      right; right
      cases given.symm.trans made
      exact ⟨subject, plan, response, underReview, rfl, last, released, rfl⟩

theorem Coherent.isSome_reply_iff (coherent : Coherent session) {capacity : Nat} {input : Input}
    (given : turn.stimulus = .input capacity input) :
    (session.respond secret turn).1.isSome = true ↔ session.matter?.isSome = true ∧
      (input = .reject ∨ input = .confirm ∧ session.shownEntry? = none) := by
  rcases coherent.replies_to_input given with
    ⟨silent, goesOn⟩ | ⟨underReview, rejects, reply_eq⟩ |
    ⟨subject, plan, response, underReview, confirms, last, released, reply_eq⟩
  · rw [silent]
    apply iff_of_false Bool.false_ne_true
    rintro ⟨underReview, rejects | ⟨confirms, last⟩⟩
    · exact (goesOn underReview).1 rejects
    · exact (goesOn underReview).2 confirms last
  · rw [reply_eq]
    exact iff_of_true rfl ⟨underReview, .inl rejects⟩
  · rw [reply_eq, underReview]
    exact iff_of_true rfl ⟨rfl, .inr ⟨confirms, last⟩⟩

theorem Coherent.reply_to_reject (coherent : Coherent session) {capacity : Nat}
    (given : turn.stimulus = .input capacity .reject)
    (underReview : session.matter?.isSome = true) :
    (session.respond secret turn).1 = some (.complete .userRejected []) := by
  rcases coherent.replies_to_input given with ⟨_, goesOn⟩ | ⟨_, _, reply_eq⟩ | confirmed
  · exact absurd rfl (goesOn underReview).1
  · exact reply_eq
  · rcases confirmed with ⟨_, _, _, _, confirms, _⟩
    cases confirms

theorem Coherent.reply_to_confirm (coherent : Coherent session) {capacity : Nat}
    (given : turn.stimulus = .input capacity .confirm)
    (underReview : session.matter?.isSome = true) (last : session.shownEntry? = none) :
    ∃ subject plan response, session.matter? = some (subject, plan) ∧
      Released (turn.device secret) session.fragments subject response ∧
      (session.respond secret turn).1 = some
        (if response.payload.length ≤ capacity then .complete .success response.payload
          else .complete .internal []) := by
  rcases coherent.replies_to_input given with
    ⟨_, goesOn⟩ | ⟨_, rejects, _⟩ |
    ⟨subject, plan, response, matter_eq, _, _, released, reply_eq⟩
  · exact absurd last ((goesOn underReview).2 rfl)
  · cases rejects
  · exact ⟨subject, plan, response, matter_eq, released, reply_eq⟩

/-! ## Whose reply it is -/

/-- Of the turns of a dialogue from a fresh session, the one whose reply was put
off, under the path that it concerns: what it asked for has been under review
ever since. -/
structure Awaits (secret : Path → Block 32) (earlier : List Turn) (opening : Turn)
    (later : List Turn) (path : Path) (subject : Subject) (plan : Plan) : Prop where
  deferred : ((fresh.converse secret earlier).respond secret opening).1 = some .deferred
  asked : (fresh.converse secret earlier).Asked opening path
  under : subject.Under secret path
  throughout : ∀ front, front <+: later →
    (fresh.converse secret (earlier ++ opening :: front)).matter? = some (subject, plan)

/-- What is under review after a turn was so before, or the turn has opened it. -/
theorem Coherent.matter?_respond (coherent : Coherent session) {subject : Subject} {plan : Plan}
    (underReview : (session.respond secret turn).2.matter? = some (subject, plan)) :
    session.matter? = some (subject, plan) ∨
      (session.respond secret turn).1 = some .deferred ∧
        ∃ path, session.Asked turn path ∧ subject.Under secret path := by
  have exchanged := coherent.exchanged secret turn
  generalize session.respond secret turn = final at exchanged underReview ⊢
  cases exchanged with
  | answered byHost other same => exact .inl (same.symm.trans underReview)
  | lost byHost => cases underReview
  | opened asked under outside begun =>
      right
      cases begun.symm.trans underReview
      exact ⟨rfl, _, asked, under⟩
  | unheard given same goesOn => exact .inl (same.symm.trans underReview)
  | rejected given underway => cases underReview
  | approved given underway last released => cases underReview

theorem Awaits.start {earlier : List Turn} {opening : Turn} {path : Path} {subject : Subject}
    {plan : Plan}
    (deferred : ((fresh.converse secret earlier).respond secret opening).1 = some .deferred)
    (asked : (fresh.converse secret earlier).Asked opening path)
    (under : subject.Under secret path)
    (underReview : (fresh.converse secret (earlier ++ [opening])).matter? = some (subject, plan)) :
    Awaits secret earlier opening [] path subject plan := by
  refine ⟨deferred, asked, under, ?_⟩
  intro front isPrefix
  rw [List.prefix_nil.mp isPrefix]
  exact underReview

theorem Awaits.extend {earlier later : List Turn} {opening : Turn} {path : Path}
    {subject : Subject} {plan : Plan}
    (awaits : Awaits secret earlier opening later path subject plan)
    (underReview : (fresh.converse secret (earlier ++ opening :: (later ++ [turn]))).matter? =
      some (subject, plan)) :
    Awaits secret earlier opening (later ++ [turn]) path subject plan := by
  refine ⟨awaits.deferred, awaits.asked, awaits.under, ?_⟩
  intro front isPrefix
  rcases List.prefix_concat_iff.mp isPrefix with rfl | before
  · exact underReview
  · exact awaits.throughout front before

/-- Every review was opened by one turn, whose reply is still awaited. -/
theorem exists_awaits (turns : List Turn) {subject : Subject} {plan : Plan}
    (underReview : (fresh.converse secret turns).matter? = some (subject, plan)) :
    ∃ earlier opening later path, turns = earlier ++ opening :: later ∧
      Awaits secret earlier opening later path subject plan := by
  induction turns using List.reverseRecOn with
  | nil => cases underReview
  | append_singleton before turn ih =>
      have coherent : Coherent (fresh.converse secret before) :=
        (Reachable.converse ⟨[], rfl⟩ before).coherent
      have respond_eq : ((fresh.converse secret before).respond secret turn).2.matter? =
          some (subject, plan) := by
        rw [converse_append, converse_cons, converse_nil] at underReview
        exact underReview
      rcases coherent.matter?_respond respond_eq with
        same | ⟨deferred, path, asked, under⟩
      · rcases ih same with ⟨earlier, opening, later, path, rfl, awaits⟩
        rw [List.append_assoc, List.cons_append] at underReview ⊢
        exact ⟨earlier, opening, later ++ [turn], path, rfl, awaits.extend underReview⟩
      · exact ⟨before, turn, [], path, rfl, .start deferred asked under underReview⟩

/-! ## The replies of a dialogue -/

/-- Every reply is sound, and every reply that was put off is given once, to its
command.  Only success has a payload, which is that of the answer produced, of a
fixed length, and within the buffer; an internal failure means an answer that
does not fit, and a fresh session.  What the replies show to be outstanding is
the review in progress.  No reply is put off meanwhile, and none to an input;
there is a reply to an input exactly when it rejects, or confirms behind the
last entry, and that reply releases what was under review since one turn was put
off, and no other turn. -/
theorem every_reply_has_its_command (secret : Path → Block 32) (turns : List Turn)
    (turn : Turn) :
    let session := fresh.converse secret turns
    let produced := (session.produce secret turn).1
    let reply := (session.respond secret turn).1
    let outstanding := Exchange.outstandingAfter (fresh.exchanges secret turns)
    (∀ status payload, reply = some (.complete status payload) → status ≠ .success →
      payload = []) ∧
    (∀ payload, reply = some (.complete .success payload) →
      payload.length ≤ turn.capacity ∧ payload.length ∈ [0, 3, 32, 64] ∧
        ∃ answer, answer ≠ .pending ∧ produced = some (.ok answer) ∧
          payload = answer.payload) ∧
    (reply = some (.complete .internal []) ↔
      ∃ answer, produced = some (.ok answer) ∧ turn.capacity < answer.payload.length) ∧
    (reply = some (.complete .internal []) → (session.respond secret turn).2 = fresh) ∧
    (outstanding = true ↔ session.phase = .reviewing) ∧
    (reply = some .deferred → turn.isInput = false ∧ outstanding = false) ∧
    (∀ capacity input, turn.stimulus = .input capacity input →
      (reply.isSome = true ↔ outstanding = true ∧
        (input = .reject ∨ input = .confirm ∧ session.shownEntry? = none)) ∧
      (outstanding = true → input = .reject → reply = some (.complete .userRejected [])) ∧
      (outstanding = true → input = .confirm → session.shownEntry? = none →
        ∃ subject plan response, session.matter? = some (subject, plan) ∧
          Released (turn.device secret) session.fragments subject response ∧
          reply = some
            (if response.payload.length ≤ capacity then .complete .success response.payload
              else .complete .internal []))) ∧
    (outstanding = true → ∃ subject plan, session.matter? = some (subject, plan) ∧
      ∃ earlier opening later path, turns = earlier ++ opening :: later ∧
        Awaits secret earlier opening later path subject plan) := by
  intro session produced reply outstanding
  have coherent : Coherent session := (Reachable.converse ⟨[], rfl⟩ turns).coherent
  have outstanding_eq : outstanding = session.matter?.isSome :=
    outstandingAfter_exchanges secret turns
  constructor
  · intro status payload completed failed
    exact payload_eq_nil_of_failure completed failed
  constructor
  · intro payload succeeded
    rcases exists_answer_of_success succeeded with ⟨answer, settled, answered, fits, rfl⟩
    exact ⟨fits, answer.length_payload, answer, settled, answered, rfl⟩
  constructor
  · constructor
    · intro internal
      exact (coherent.exists_overlong internal).1
    · rintro ⟨answer, answered, overlong⟩
      exact internal_of_overlong answered overlong
  constructor
  · intro internal
    exact (coherent.exists_overlong internal).2
  constructor
  · rw [outstanding_eq, coherent.isSome_matter?_iff]
  constructor
  · intro deferred
    rcases coherent.opens_of_deferred deferred with ⟨byHost, outside⟩
    rw [outstanding_eq, outside]
    exact ⟨byHost, rfl⟩
  constructor
  · intro capacity input given
    rw [outstanding_eq]
    constructor
    · exact coherent.isSome_reply_iff given
    constructor
    · rintro underReview rfl
      exact coherent.reply_to_reject given underReview
    · rintro underReview rfl last
      exact coherent.reply_to_confirm given underReview last
  · intro waiting
    rw [outstanding_eq, Option.isSome_iff_exists] at waiting
    rcases waiting with ⟨⟨subject, plan⟩, underReview⟩
    exact ⟨subject, plan, underReview, exists_awaits turns underReview⟩

end Session

end NearSigner
