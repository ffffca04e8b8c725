import NearSigner.Review.Basic
import NearSigner.Review.Rendering
import NearSigner.Session.Answer
import NearSigner.Session.Command
import NearSigner.Session.Reassembly
import NearSigner.Device

/-!
# The session

The session takes the commands of the host and the inputs of the user.  It
collects the fragments of a transaction, starts a review for everything that
needs an approval, and releases what was reviewed once the user approves.

A command that is refused ends the session's current business and leaves
nothing of it behind, except during a review: then every command that would
disturb it is refused, and the review goes on.
-/

namespace NearSigner

/-- What the session is doing. -/
inductive Phase
  /-- Nothing. -/
  | idle
  /-- A message has arrived in part. -/
  | awaitingMore
  /-- A message that is complete is being read. -/
  | parsing
  /-- The user reviews a request. -/
  | reviewing
  /-- What was approved is being computed. -/
  | signing
deriving DecidableEq, Repr

namespace Phase

/-- Every phase. -/
def all : List Phase :=
  [.idle, .awaitingMore, .parsing, .reviewing, .signing]

/-- The name of a phase. -/
def name : Phase → String
  | idle => "Idle"
  | awaitingMore => "AwaitingMore"
  | parsing => "Parsing"
  | reviewing => "Reviewing"
  | signing => "Signing"

/-- The phase with a name. -/
def ofName? (name : String) : Option Phase :=
  all.find? (·.name == name)

@[simp]
theorem ofName?_name (phase : Phase) : ofName? phase.name = some phase := by
  cases phase <;> rfl

end Phase

/-- The version of the application. -/
def applicationVersion : Version where
  major := 1
  minor := 2
  patch := 0

/-- The state of the session. -/
structure Session where
  phase : Phase
  fragments : Reassembly
  pending : Option Review
deriving DecidableEq, Repr

namespace Session

/-- The session of a device that has just been switched on. -/
def fresh : Session where
  phase := .idle
  fragments := Reassembly.empty
  pending := none

/-- Give up all business. -/
def reset (session : Session) : Session :=
  { session with phase := .idle, fragments := Reassembly.empty, pending := none }

/-- A session that gives up its business is as good as new. -/
@[simp]
theorem reset_eq_fresh (session : Session) : session.reset = fresh :=
  rfl

/-- The plan that the user reviews. -/
def review? (session : Session) : Option Plan :=
  match session.phase with
  | .reviewing => session.pending.map Review.plan
  | _ => none

/-- How far the user has come. -/
def approval (session : Session) : Approval :=
  Review.approvalOf session.pending

/-- The number of the entry that is shown. -/
def shownEntry? (session : Session) : Option Nat :=
  session.approval.shownEntry?

/-! ## Commands -/

/-- A computation that changes the session and may be refused.  What it has
changed by then stays visible. -/
abbrev Attempt (α : Type) := ExceptT Refusal (StateM Session) α

namespace Attempt

/-- Enter a phase. -/
def enter (phase : Phase) : Attempt Unit :=
  modify fun session => { session with phase }

/-- Start a review. -/
def startReview (subject : Subject) (plan : Plan) : Attempt Answer := do
  modify fun session => { session with pending := some (Review.start subject plan) }
  enter .reviewing
  return .pending

/-- Return the public key of a path, after a review if that is asked for. -/
def getPublicKey (device : Device) (path : Path) (confirm : Bool) :
    Attempt Answer := do
  let key ← device.publicKey path
  if confirm then
    startReview (.key key) (Plan.forPublicKey key)
  else
    return .response (.publicKey key)

/-- Review and return the wallet identifier of a path. -/
def getWalletId (device : Device) (path : Path) : Attempt Answer := do
  let key ← device.publicKey path
  startReview (.key key) (Plan.forWalletId key)

/-- Take a fragment. -/
def pushFragment (first last : Bool) (data : Bytes) : Attempt (Option Bytes) :=
  fun session =>
    let (result, fragments) := session.fragments.push first last data
    (result, { session with fragments })

/-- Read a complete message and start its review. -/
def reviewMessage (message : Bytes) : Attempt Answer := do
  enter .parsing
  match Path.parse message with
  | .error reason => throw (Refusal.ofFormatError reason)
  | .ok (path, octets) =>
      Device.checkPath path
      let decoded := Transaction.decode octets
      decoded.result
      startReview (.signature path .transaction) decoded.plan

/-- Take a fragment of a message, and review the message when it is complete. -/
def signChunk (first last : Bool) (data : Bytes) : Attempt Answer := do
  match ← pushFragment first last data with
  | some message => reviewMessage message
  | none =>
      enter .awaitingMore
      return .done

/-- Review a hash, if the setting allows it. -/
def blindSign (device : Device) (data : Bytes) : Attempt Answer := do
  unless device.blindSigning do
    throw .blindSigningDisabled
  match Request.decodeBlind data with
  | .error _ => throw .invalidBlindPayloadLength
  | .ok (path, hash) =>
      Device.checkPath path
      startReview (.signature path (.hash hash)) (Plan.forBlindHash hash)

/-- Carry out a command that may change the session, outside a review. -/
def perform (device : Device) (command : Command) : Attempt Answer := do
  match (← get).phase, command with
  | .awaitingMore, .signChunk last data => signChunk false last data
  | .awaitingMore, _ => throw .outOfSequence
  | .idle, .getPublicKey path confirm => getPublicKey device path confirm
  | .idle, .getWalletId path => getWalletId device path
  | .idle, .signChunk last data => signChunk true last data
  | .idle, .blindSign data => blindSign device data
  | _, _ => throw .unexpectedCommand

end Attempt

/-- Take a command.  A refusal resets the session, unless it is that a review is
in progress. -/
def update (device : Device) (command : Command) (session : Session) :
    Except Refusal Answer × Session :=
  match command, session.phase with
  | .nothing, _ => (.ok .done, session)
  | .getConfiguration, _ => (.ok (.response (.version applicationVersion)), session)
  | _, .reviewing => (.error .busy, session)
  | _, _ =>
      match StateT.run (ExceptT.run (Attempt.perform device command)) session with
      | (.ok answer, changed) => (.ok answer, changed)
      | (.error refusal, changed) => (.error refusal, changed.reset)

/-- Report that a command failed before it reached the session. -/
def fail (refusal : Refusal) (session : Session) : Refusal × Session :=
  match session.phase with
  | .reviewing => (.busy, session)
  | _ => (refusal, session.reset)

/-! ## Inputs -/

/-- The hash that a review of a signature is about. -/
def hashToSign? (session : Session) : Payload → Option (Block 32)
  | .hash hash => some hash
  | .transaction =>
      match session.fragments.message? with
      | some message =>
          if Path.wireLength ≤ message.length then
            some (Device.transactionHash (message.drop Path.wireLength))
          else
            none
      | none => none

/-- What an approved review releases. -/
def release (device : Device) (session : Session) (review : Review) :
    Except Refusal Answer :=
  match review.subject with
  | .key key => .ok (.response (.publicKey key))
  | .signature path payload =>
      match session.hashToSign? payload with
      | some hash => do
          return .response (.signature (← device.sign path review.approval hash))
      | none => .error .unexpectedCommand

/-- Take an input of the user.  There is a result when it ends the review, and
the session is reset then. -/
def input (device : Device) (input : Input) (session : Session) :
    Option (Except Refusal Answer) × Session :=
  match session.phase, session.pending with
  | .reviewing, some review =>
      let review := review.next input
      let session := { session with pending := some review }
      match review.approval with
      | .approved =>
          let session := { session with phase := .signing }
          (some (session.release device review), session.reset)
      | .rejected => (some (.error .userRejected), session.reset)
      | _ => (none, session)
  | .reviewing, none => (none, session.reset)
  | _, _ => (none, session)

end Session

end NearSigner
