import NearSigner.Session.Basic

/-!
# Exchanges with the host

A frame is answered at once, or its answer is put off until the user has ended
the review that it started.  An answer consists of a payload, which has to fit
the buffer for replies, and a status.
-/

namespace NearSigner

/-- A reply to a frame. -/
inductive Reply
  /-- The command is finished. -/
  | complete (status : Status) (payload : Bytes)
  /-- The reply comes when the user has ended the review. -/
  | deferred
deriving DecidableEq, Repr

/-- The reply to a command that was refused. -/
def Reply.refused (refusal : Refusal) : Reply :=
  complete refusal.status []

namespace Session

/-- The reply for the result of a command or an input, when a payload of at
most `capacity` octets can be sent.  The session is reset if there is more. -/
def reply (capacity : Nat) (result : Except Refusal Answer) (session : Session) :
    Reply × Session :=
  match result with
  | .error refusal => (Reply.refused refusal, session)
  | .ok .pending => (.deferred, session)
  | .ok answer =>
      match answer.encode capacity with
      | .ok payload => (.complete .success payload, session)
      | .error _ => (Reply.refused .encodingFailed, session.reset)

/-- The reply to a command that failed before it reached the session. -/
def replyFailure (refusal : Refusal) (session : Session) : Reply × Session :=
  let (reported, session) := session.fail refusal
  (Reply.refused reported, session)

/-- Take a frame of the host. -/
def handleFrame (device : Device) (capacity : Nat) (frame : Bytes)
    (session : Session) : Reply × Session :=
  match Frame.decode frame with
  | .error _ => session.replyFailure .wrongDataLength
  | .ok (frame, _) =>
      match Command.ofFrame frame with
      | .error refusal => session.replyFailure refusal
      | .ok command =>
          let (result, session) := session.update device command
          session.reply capacity result

/-- Take an input of the user.  There is a reply when it ends a review. -/
def handleInput (device : Device) (capacity : Nat) (input : Input)
    (session : Session) : Option Reply × Session :=
  match session.input device input with
  | (none, session) => (none, session)
  | (some result, session) =>
      let (reply, session) := session.reply capacity result
      (some reply, session)

end Session

end NearSigner
