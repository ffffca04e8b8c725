import NearSigner.Proofs.Faults.Commands
import NearSigner.Proofs.Faults.Rendering
import NearSigner.Proofs.Session.Length

/-!
# No input faults

The session with all the operations that can fault: it reads and shows a
message, it shows a key, and it counts the pages of a review.  None of them
faults in a session that some history leads to, because the plan under review
has no more entries than the message that it shows has room for.
-/

namespace NearSigner.Checked

/-! ## Commands -/

/-- The plan that shows a public key. -/
def planForPublicKey (key : Block 32) : Option Plan := do
  let shown ← keyText { kind := .ed25519, data := key }
  return Plan.ofList [("Public Key", shown)]

theorem planForPublicKey_eq_some (key : Block 32) :
    planForPublicKey key = some (Plan.forPublicKey key) := by
  rw [planForPublicKey, keyText_eq_some]
  rfl

/-- A computation that changes the session, may be refused and may fault. -/
abbrev Attempt (α : Type) := Computation Session α

namespace Attempt

/-- Enter a phase. -/
def enter (phase : Phase) : Attempt Unit :=
  .ofPlain (Session.Attempt.enter phase)

/-- Start a review. -/
def startReview (subject : Subject) (plan : Plan) : Attempt Answer :=
  .ofPlain (Session.Attempt.startReview subject plan)

/-- Take a fragment. -/
def pushFragment (first last : Bool) (data : Bytes) : Attempt (Option Bytes) :=
  .ofPlain (Session.Attempt.pushFragment first last data)

/-- Return the public key of a path, after a review if that is asked for. -/
def getPublicKey (device : Device) (path : Path) (confirm : Bool) : Attempt Answer := do
  let key ← device.publicKey path
  if confirm then
    let plan ← planForPublicKey key
    startReview (.key key) plan
  else
    return .response (.publicKey key)

/-- Review and return the wallet identifier of a path. -/
def getWalletId (device : Device) (path : Path) : Attempt Answer := do
  let key ← device.publicKey path
  startReview (.key key) (Plan.forWalletId key)

/-- Read a complete message and start its review. -/
def reviewMessage (message : Bytes) : Attempt Answer := do
  enter .parsing
  match ← parsePath message with
  | .error reason => throw (Refusal.ofFormatError reason)
  | .ok (path, octets) =>
      Device.checkPath path
      let (result, plan) ← decode octets
      result
      startReview (.signature path .transaction) plan

/-- Take a fragment of a message, and review the message when it is complete. -/
def signChunk (first last : Bool) (data : Bytes) : Attempt Answer := do
  match ← pushFragment first last data with
  | some message => reviewMessage message
  | none =>
      enter .awaitingMore
      return .done

/-- Review a hash, if the setting allows it. -/
def blindSign (device : Device) (data : Bytes) : Attempt Answer := do
  unless device.blindSigning do
    throw .blindSigningDisabled
  match ← readHashRequest data with
  | .error _ => throw .invalidBlindPayloadLength
  | .ok (path, hash) =>
      Device.checkPath path
      startReview (.signature path (.hash hash)) (Plan.forBlindHash hash)

/-- Carry out a command that may change the session, outside a review. -/
def perform (device : Device) (command : Command) : Attempt Answer := do
  match (← get).phase, command with
  | .awaitingMore, .signChunk last data => signChunk false last data
  | .awaitingMore, _ => throw .outOfSequence
  | .idle, .getPublicKey path confirm => getPublicKey device path confirm
  | .idle, .getWalletId path => getWalletId device path
  | .idle, .signChunk last data => signChunk true last data
  | .idle, .blindSign data => blindSign device data
  | _, _ => throw .unexpectedCommand

theorem getPublicKey_mirrors (device : Device) (path : Path) (confirm : Bool) :
    Mirrors Eq (getPublicKey device path confirm)
      (Session.Attempt.getPublicKey device path confirm) := by
  apply (Mirrors.check _).bind
  intro key
  cases confirm with
  | true => exact .lift_bind (planForPublicKey_eq_some key) (.ofPlain _)
  | false => exact .pure _

theorem getWalletId_mirrors (device : Device) (path : Path) :
    Mirrors Eq (getWalletId device path) (Session.Attempt.getWalletId device path) := by
  apply (Mirrors.check _).bind
  intro key
  exact .ofPlain _

theorem reviewMessage_mirrors (message : Bytes) :
    Mirrors Eq (reviewMessage message) (Session.Attempt.reviewMessage message) := by
  apply (Mirrors.ofPlain _).bind
  intro _
  apply Mirrors.lift_bind (parsePath_eq_some message)
  rcases Path.parse message with reason | ⟨path, octets⟩
  · exact .throw _
  · apply (Mirrors.check _).bind
    intro _
    apply Mirrors.lift_bind (decode_eq_some octets)
    apply (Mirrors.check _).bind
    intro _
    exact .ofPlain _

theorem signChunk_mirrors (first last : Bool) (data : Bytes) :
    Mirrors Eq (signChunk first last data) (Session.Attempt.signChunk first last data) := by
  apply (Mirrors.ofPlain _).bind
  rintro (_ | message)
  · exact (Mirrors.ofPlain _).bind fun _ => .pure _
  · exact reviewMessage_mirrors message

theorem blindSign_mirrors (device : Device) (data : Bytes) :
    Mirrors Eq (blindSign device data) (Session.Attempt.blindSign device data) := by
  rw [blindSign, Session.Attempt.blindSign]
  cases device.blindSigning with
  | false => exact .throw _
  | true =>
      rw [if_pos rfl, if_pos rfl]
      apply Mirrors.lift_bind (readHashRequest_eq_some data)
      rcases Request.decodeBlind data with reason | ⟨path, hash⟩
      · exact .throw _
      · apply (Mirrors.check _).bind
        intro _
        exact .ofPlain _

theorem perform_mirrors (device : Device) (command : Command) :
    Mirrors Eq (perform device command) (Session.Attempt.perform device command) := by
  rintro ⟨phase, fragments, pending⟩ _ rfl
  apply MirrorsFrom.get_bind
  cases phase with
  | awaitingMore =>
      cases command with
      | signChunk last data => exact signChunk_mirrors false last data _ _ rfl
      | _ => exact .throw _ rfl
  | idle =>
      cases command with
      | getPublicKey path confirm => exact getPublicKey_mirrors device path confirm _ _ rfl
      | getWalletId path => exact getWalletId_mirrors device path _ _ rfl
      | signChunk last data => exact signChunk_mirrors true last data _ _ rfl
      | blindSign data => exact blindSign_mirrors device data _ _ rfl
      | _ => exact .throw _ rfl
  | _ => exact .throw _ rfl

end Attempt

/-- Take a command.  A refusal resets the session, unless it is that a review is
in progress. -/
def update (device : Device) (command : Command) (session : Session) :
    Option (Except Refusal Answer × Session) :=
  match command, session.phase with
  | .nothing, _ => some (.ok .done, session)
  | .getConfiguration, _ => some (.ok (.response (.version applicationVersion)), session)
  | _, .reviewing => some (.error .busy, session)
  | _, _ => do
      match ← Computation.run (Attempt.perform device command) session with
      | (.ok answer, changed) => return (.ok answer, changed)
      | (.error refusal, changed) => return (.error refusal, changed.reset)

theorem update_eq_some (device : Device) (command : Command) (session : Session) :
    update device command session = some (session.update device command) := by
  have performed : (do
      match ← Computation.run (Attempt.perform device command) session with
      | (.ok answer, changed) => return (.ok answer, changed)
      | (.error refusal, changed) => return (.error refusal, changed.reset)) =
        some (Session.settled (Plain.run (Session.Attempt.perform device command) session)) := by
    rw [(Attempt.perform_mirrors device command).run_eq]
    rcases Plain.run (Session.Attempt.perform device command) session with ⟨_ | _, _⟩ <;> rfl
  rcases session with ⟨phase, fragments, pending⟩
  cases command with
  | nothing => rfl
  | getConfiguration => rfl
  | _ =>
      cases phase with
      | reviewing => rfl
      | _ => exact performed

/-! ## Inputs -/

/-- The effect of an input on how far the user has come. -/
def nextApproval : Approval → Input → Option Approval
  | .reviewing page pages, .next => do
      let shown ← successor page
      return .reviewing (min shown pages) pages
  | approval, input => some (approval.next input)

/-- The number behind that of the page on show is a word. -/
def PageFits (approval : Approval) : Prop :=
  ∀ page pages, approval = .reviewing page pages → page + 1 < wordLimit

theorem nextApproval_eq_some {approval : Approval} (fits : PageFits approval) (input : Input) :
    nextApproval approval input = some (approval.next input) := by
  cases approval with
  | reviewing page pages =>
      cases input with
      | next =>
          rw [nextApproval, successor_eq_some (fits page pages rfl)]
          rfl
      | _ => rfl
  | _ => rfl

/-- Take an input of the user.  There is a result when it ends the review, and
the session is reset then. -/
def input (device : Device) (input : Input) (session : Session) :
    Option (Option (Except Refusal Answer) × Session) :=
  match session.phase, session.pending with
  | .reviewing, some review => do
      let approval ← nextApproval review.approval input
      let review := { review with approval }
      let session := { session with pending := some review }
      match approval with
      | .approved =>
          let session := { session with phase := .signing }
          return (some (session.release device review), session.reset)
      | .rejected => return (some (.error .userRejected), session.reset)
      | _ => return (none, session)
  | .reviewing, none => some (none, session.reset)
  | _, _ => some (none, session)

theorem input_eq_some (device : Device) (given : Input) {session : Session}
    (fits : PageFits session.approval) :
    input device given session = some (session.input device given) := by
  rcases session with ⟨phase, fragments, pending⟩
  cases phase with
  | reviewing =>
      cases pending with
      | none => rfl
      | some review =>
          have turned : nextApproval review.approval given = some (review.approval.next given) :=
            nextApproval_eq_some fits given
          simp only [input, Session.input, turned, Review.next, Option.bind_eq_bind,
            Option.bind_some]
          cases review.approval.next given <;> rfl
  | _ => rfl

theorem pageFits_of_coherent {session : Session} (coherent : session.Coherent) :
    PageFits session.approval := by
  cases coherent with
  | fresh => exact nofun
  | collecting fits => exact nofun
  | reviewing shows inside =>
      rintro _ _ ⟨⟩
      -- What a full message can show is far below the limit of words.
      exact Nat.lt_of_le_of_lt (Nat.succ_le_succ (Nat.le_trans inside shows.length_le))
        (by decide)

/-! ## Frames of the host and histories -/

/-- Take a frame of the host. -/
def handleFrame (device : Device) (capacity : Nat) (octets : Bytes) (session : Session) :
    Option (Reply × Session) := do
  match ← commandIn octets with
  | .error refusal => return session.replyFailure refusal
  | .ok command =>
      let (result, next) ← update device command session
      return next.reply capacity result

theorem handleFrame_eq_some (device : Device) (capacity : Nat) (octets : Bytes)
    (session : Session) :
    handleFrame device capacity octets session =
      some (session.handleFrame device capacity octets) := by
  rw [handleFrame, commandIn_eq_some]
  rcases carried : Command.ofOctets octets with refusal | command
  · rw [Session.handleFrame_of_refused carried]
    rfl
  · rw [Session.handleFrame_of_command carried]
    change (update device command session >>= _) = _
    rw [update_eq_some]
    rfl

/-- Take an input of the user.  There is a reply when it ends a review. -/
def handleInput (device : Device) (capacity : Nat) (given : Input) (session : Session) :
    Option (Option Reply × Session) := do
  match ← input device given session with
  | (none, next) => return (none, next)
  | (some result, next) =>
      let (reply, last) := next.reply capacity result
      return (some reply, last)

theorem handleInput_eq_some (device : Device) (capacity : Nat) (given : Input)
    {session : Session} (fits : PageFits session.approval) :
    handleInput device capacity given session =
      some (session.handleInput device capacity given) := by
  rw [handleInput, input_eq_some device given fits, Session.handleInput]
  rcases session.input device given with ⟨_ | result, next⟩ <;> rfl

/-- The reply to a turn, if there is one, and the session afterwards. -/
def respond (secret : Path → Block 32) (session : Session) (turn : Turn) :
    Option (Option Reply × Session) :=
  match turn.stimulus with
  | .frame capacity octets => do
      let (reply, next) ← handleFrame (turn.device secret) capacity octets session
      return (some reply, next)
  | .input capacity given => handleInput (turn.device secret) capacity given session

theorem respond_eq_some (secret : Path → Block 32) {session : Session}
    (coherent : session.Coherent) (turn : Turn) :
    respond secret session turn = some (session.respond secret turn) := by
  rcases turn with ⟨setting, ⟨capacity, octets⟩ | ⟨capacity, given⟩⟩
  · simp only [respond, handleFrame_eq_some]
    rfl
  · exact handleInput_eq_some _ capacity given (pageFits_of_coherent coherent)

/-- The session after a call. -/
def after (secret : Path → Block 32) (session : Session) (occurrence : Occurrence) :
    Option Session :=
  match occurrence.call with
  | .update command => do
      let (_, next) ← update (occurrence.device secret) command session
      return next
  | .input given => do
      let (_, next) ← input (occurrence.device secret) given session
      return next
  | .fail refusal => some (session.fail refusal).2
  | .reset => some session.reset

theorem after_eq_some (secret : Path → Block 32) {session : Session} (coherent : session.Coherent)
    (occurrence : Occurrence) :
    after secret session occurrence = some (session.after secret occurrence) := by
  rcases occurrence with ⟨setting, command | given | refusal | _⟩
  · simp only [after, update_eq_some]
    rfl
  · simp only [after, input_eq_some _ given (pageFits_of_coherent coherent)]
    rfl
  · rfl
  · rfl

/-- The session after every call of a history. -/
def run (secret : Path → Block 32) : Session → List Occurrence → Option Session
  | session, [] => some session
  | session, occurrence :: later => do
      let next ← after secret session occurrence
      run secret next later

theorem run_eq_some (secret : Path → Block 32) {session : Session} (coherent : session.Coherent)
    (history : List Occurrence) :
    run secret session history = some (session.run secret history) := by
  induction history generalizing session with
  | nil => rfl
  | cons occurrence later ih =>
      rw [run, after_eq_some secret coherent]
      exact ih ((coherent.step occurrence).coherent coherent)

end NearSigner.Checked

namespace NearSigner.Session

/-- Nothing that the host sends and nothing that the user does leads to a fault.
Every history of calls, and every frame and every input in the session after it,
has the same outcome whether or not an operation may fault.  So does decoding
any octets, whatever number of actions they declare, showing any key, and
writing a frame into any buffer. -/
theorem no_input_faults (secret : Path → Block 32) :
    (∀ history : List Occurrence,
      Checked.run secret fresh history = some (fresh.run secret history)) ∧
    (∀ (history : List Occurrence) (turn : Turn),
      Checked.respond secret (fresh.run secret history) turn =
        some ((fresh.run secret history).respond secret turn)) ∧
    (∀ octets : Bytes,
      Checked.decode octets =
        some ((Transaction.decode octets).result, (Transaction.decode octets).plan)) ∧
    (∀ key : PublicKey, Checked.keyText key = some key.text) ∧
    (∀ (frame : Frame) (buffer : Bytes),
      Checked.writeFrame frame buffer = some (frame.writeTo buffer)) := by
  constructor
  · intro history
    exact Checked.run_eq_some secret .fresh history
  constructor
  · intro history turn
    exact Checked.respond_eq_some secret (coherent_run secret history) turn
  · exact ⟨Checked.decode_eq_some, Checked.keyText_eq_some, Checked.writeFrame_eq_some⟩

end NearSigner.Session
