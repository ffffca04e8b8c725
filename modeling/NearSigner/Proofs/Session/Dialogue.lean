import NearSigner.Proofs.Session.Coherence
import NearSigner.Session.Exchange

/-!
# Dialogues with a device

From outside, a device is given frames of the host and inputs of the user, one
after the other, each with a buffer for the reply and under the setting that is
in force when it arrives.  What can be observed is every reply and, after every
turn, the phase, the plan under review, how far the user has come with it, and
the entry on show.
-/

namespace NearSigner

/-- The command that a sequence of octets carries as a frame. -/
def Command.ofOctets (octets : Bytes) : Except Refusal Command :=
  match Frame.decode octets with
  | .error _ => .error .wrongDataLength
  | .ok (frame, _) => ofFrame frame

/-- What a device is given, with the capacity of the buffer for its reply. -/
inductive Stimulus
  | frame (capacity : Nat) (octets : Bytes)
  | input (capacity : Nat) (input : Input)
deriving DecidableEq, Repr

/-- A stimulus and the setting that is in force when it arrives. -/
structure Turn where
  blindSigning : Bool
  stimulus : Stimulus
deriving DecidableEq, Repr

namespace Turn

/-- The device to which a turn belongs. -/
def device (secret : Path → Block 32) (turn : Turn) : Device where
  secret := secret
  blindSigning := turn.blindSigning

/-- Whether the turn is the user's. -/
def isInput (turn : Turn) : Bool :=
  match turn.stimulus with
  | .frame _ _ => false
  | .input _ _ => true

end Turn

/-- What can be seen of a device after a turn. -/
structure Observation where
  reply : Option Reply
  phase : Phase
  plan : Option Plan
  approval : Approval
  shownEntry : Option Nat
deriving DecidableEq, Repr

namespace Session

variable (secret : Path → Block 32)

/-- The reply to a turn, if there is one, and the session afterwards. -/
def respond (session : Session) (turn : Turn) : Option Reply × Session :=
  match turn.stimulus with
  | .frame capacity octets =>
      let (reply, next) := session.handleFrame (turn.device secret) capacity octets
      (some reply, next)
  | .input capacity input => session.handleInput (turn.device secret) capacity input

/-- The session after every turn of a dialogue. -/
def converse (session : Session) (turns : List Turn) : Session :=
  turns.foldl (fun session turn => (session.respond secret turn).2) session

@[simp]
theorem converse_nil (session : Session) : session.converse secret [] = session :=
  rfl

@[simp]
theorem converse_cons (session : Session) (turn : Turn) (later : List Turn) :
    session.converse secret (turn :: later) =
      (session.respond secret turn).2.converse secret later :=
  rfl

@[simp]
theorem converse_append (session : Session) (earlier later : List Turn) :
    session.converse secret (earlier ++ later) =
      (session.converse secret earlier).converse secret later := by
  rw [converse, List.foldl_append]
  rfl

/-- What can be seen after a turn that had a reply, or none. -/
def observe (session : Session) (reply : Option Reply) : Observation where
  reply := reply
  phase := session.phase
  plan := session.review?
  approval := session.approval
  shownEntry := session.shownEntry?

/-- What can be seen in the course of a dialogue. -/
def transcript (session : Session) : List Turn → List Observation
  | [] => []
  | turn :: later =>
      let (reply, next) := session.respond secret turn
      next.observe reply :: next.transcript later

/-! ## Frames carry commands -/

theorem handleFrame_of_refused {octets : Bytes} {refusal : Refusal}
    (refused : Command.ofOctets octets = .error refusal) (device : Device) (capacity : Nat)
    (session : Session) :
    session.handleFrame device capacity octets = session.replyFailure refusal := by
  rcases decoded : Frame.decode octets with reason | ⟨frame, used⟩
  · simp only [Command.ofOctets, decoded, Except.error.injEq] at refused
    simp only [handleFrame, decoded, refused]
  · simp only [Command.ofOctets, decoded] at refused
    simp only [handleFrame, decoded, refused]

theorem handleFrame_of_command {octets : Bytes} {command : Command}
    (carried : Command.ofOctets octets = .ok command) (device : Device) (capacity : Nat)
    (session : Session) :
    session.handleFrame device capacity octets =
      (session.update device command).2.reply capacity (session.update device command).1 := by
  rcases decoded : Frame.decode octets with reason | ⟨frame, used⟩
  · simp only [Command.ofOctets, decoded, reduceCtorEq] at carried
  · simp only [Command.ofOctets, decoded] at carried
    simp only [handleFrame, decoded, carried]

theorem handleInput_of_none {device : Device} {input : Input} {session next : Session}
    (taken : session.input device input = (none, next)) (capacity : Nat) :
    session.handleInput device capacity input = (none, next) := by
  simp only [handleInput, taken]

theorem handleInput_of_some {device : Device} {input : Input} {session next : Session}
    {result : Except Refusal Answer} (taken : session.input device input = (some result, next))
    (capacity : Nat) :
    session.handleInput device capacity input =
      (some (next.reply capacity result).1, (next.reply capacity result).2) := by
  simp only [handleInput, taken]

/-! ## Turns are made of calls -/

variable {secret}

theorem reply_kept_or_reset (session : Session) (capacity : Nat) (result : Except Refusal Answer) :
    (session.reply capacity result).2 = session ∨
      (session.reply capacity result).2 = session.reset := by
  rcases result with refusal | answer
  · exact .inl rfl
  · cases answer with
    | pending => exact .inl rfl
    | done => exact .inl rfl
    | response value =>
        simp only [reply]
        cases Answer.encode (.response value) capacity with
        | ok payload => exact .inl rfl
        | error reason => exact .inr rfl

/-- A call and the reply to it amount to the call alone or to the call and a
reset. -/
theorem exists_run_eq_reply (session : Session) (occurrence : Occurrence) (capacity : Nat)
    (result : Except Refusal Answer) :
    ∃ history : List Occurrence,
      ((session.after secret occurrence).reply capacity result).2 =
        session.run secret history := by
  rcases reply_kept_or_reset (session.after secret occurrence) capacity result with kept | reset
  · exact ⟨[occurrence], kept⟩
  · exact ⟨[occurrence, ⟨false, .reset⟩], reset⟩

/-- Whatever a turn does, a history of calls does. -/
theorem exists_run_eq_respond (session : Session) (turn : Turn) :
    ∃ history : List Occurrence, (session.respond secret turn).2 = session.run secret history := by
  rcases turn with ⟨setting, ⟨capacity, octets⟩ | ⟨capacity, input⟩⟩
  · rcases carried : Command.ofOctets octets with refusal | command
    · simp only [respond, handleFrame_of_refused carried]
      exact ⟨[⟨setting, .fail refusal⟩], rfl⟩
    · simp only [respond, handleFrame_of_command carried]
      exact exists_run_eq_reply session ⟨setting, .update command⟩ capacity _
  · rcases taken : session.input ⟨secret, setting⟩ input with ⟨result, next⟩
    have after_eq : session.after secret ⟨setting, .input input⟩ = next :=
      congrArg Prod.snd taken
    cases result with
    | none =>
        simp only [respond, Turn.device, handleInput_of_none taken]
        exact ⟨[⟨setting, .input input⟩], after_eq.symm⟩
    | some result =>
        simp only [respond, Turn.device, handleInput_of_some taken]
        rw [← after_eq]
        exact exists_run_eq_reply session ⟨setting, .input input⟩ capacity result

theorem Reachable.respond {session : Session} (reachable : Reachable secret session)
    (turn : Turn) : Reachable secret (session.respond secret turn).2 := by
  rcases reachable with ⟨history, rfl⟩
  rcases exists_run_eq_respond (fresh.run secret history) turn with ⟨further, respond_eq⟩
  exact ⟨history ++ further, by rw [respond_eq, run_append]⟩

theorem Reachable.converse {session : Session} (reachable : Reachable secret session)
    (turns : List Turn) : Reachable secret (session.converse secret turns) := by
  induction turns generalizing session with
  | nil => exact reachable
  | cons turn later ih => exact ih (reachable.respond turn)

end Session

end NearSigner
