import NearSigner.Session.Basic

/-!
# Histories of a session

The session is used through four calls: it takes a command of the host or an
input of the user, it is told of a failure, and it is reset.  They come in any
order, and the setting for the signing of hashes may be another one at every
call.  A history is a list of such occurrences, the first one at its head.
-/

namespace NearSigner

/-- What is asked of a session. -/
inductive Call
  | update (command : Command)
  | input (input : Input)
  | fail (refusal : Refusal)
  | reset
deriving DecidableEq, Repr

/-- A call and the setting that is in force when it is made. -/
structure Occurrence where
  blindSigning : Bool
  call : Call
deriving DecidableEq, Repr

/-- The device on which a call is made. -/
def Occurrence.device (secret : Path → Block 32) (occurrence : Occurrence) : Device where
  secret := secret
  blindSigning := occurrence.blindSigning

namespace Session

variable (secret : Path → Block 32)

/-- The session after a call. -/
def after (session : Session) (occurrence : Occurrence) : Session :=
  match occurrence.call with
  | .update command => (session.update (occurrence.device secret) command).2
  | .input input => (session.input (occurrence.device secret) input).2
  | .fail refusal => (session.fail refusal).2
  | .reset => session.reset

theorem after_update (session : Session) (setting : Bool) (command : Command) :
    session.after secret ⟨setting, .update command⟩ =
      (session.update ⟨secret, setting⟩ command).2 :=
  rfl

/-- The session after every call of a history. -/
def run (session : Session) (history : List Occurrence) : Session :=
  history.foldl (after secret) session

@[simp]
theorem run_nil (session : Session) : session.run secret [] = session :=
  rfl

@[simp]
theorem run_cons (session : Session) (occurrence : Occurrence) (later : List Occurrence) :
    session.run secret (occurrence :: later) = (session.after secret occurrence).run secret later :=
  rfl

@[simp]
theorem run_append (session : Session) (earlier later : List Occurrence) :
    session.run secret (earlier ++ later) = (session.run secret earlier).run secret later := by
  rw [run, List.foldl_append]
  rfl

/-- The data of a fragment that the session accepts. -/
def accepted (session : Session) (occurrence : Occurrence) : Bytes :=
  match occurrence.call with
  | .update (.signChunk last fragment) =>
      match (session.update (occurrence.device secret) (.signChunk last fragment)).1 with
      | .ok _ => fragment
      | .error _ => []
  | _ => []

variable {secret} in
theorem accepted_of_ok {session : Session} {occurrence : Occurrence} {last : Bool}
    {fragment : Bytes} {answer : Answer}
    (call : occurrence.call = .update (.signChunk last fragment))
    (answered : (session.update (occurrence.device secret) (.signChunk last fragment)).1 =
      .ok answer) : session.accepted secret occurrence = fragment := by
  rw [accepted, call]
  simp only [answered]

variable {secret} in
theorem accepted_of_error {session : Session} {occurrence : Occurrence} {command : Command}
    {refusal : Refusal} (call : occurrence.call = .update command)
    (refused : (session.update (occurrence.device secret) command).1 = .error refusal) :
    session.accepted secret occurrence = [] := by
  rw [accepted, call]
  cases command with
  | signChunk last fragment => simp only [refused]
  | _ => rfl

variable {secret} in
theorem accepted_of_other {session : Session} {occurrence : Occurrence}
    (other : ∀ last fragment, occurrence.call ≠ .update (.signChunk last fragment)) :
    session.accepted secret occurrence = [] := by
  rcases call : occurrence.call with command | _ | _ | _
  · cases command with
    | signChunk last fragment => exact absurd call (other last fragment)
    | _ => simp only [accepted, call]
  · simp only [accepted, call]
  · simp only [accepted, call]
  · simp only [accepted, call]

/-- The data of all fragments that are accepted in the course of a history. -/
def acceptedData (session : Session) : List Occurrence → Bytes
  | [] => []
  | occurrence :: later =>
      session.accepted secret occurrence ++ (session.after secret occurrence).acceptedData later

theorem acceptedData_append (session : Session) (earlier later : List Occurrence) :
    session.acceptedData secret (earlier ++ later) =
      session.acceptedData secret earlier ++
        (session.run secret earlier).acceptedData secret later := by
  induction earlier generalizing session with
  | nil => rfl
  | cons occurrence others ih =>
      rw [List.cons_append, acceptedData, acceptedData, ih, run_cons, List.append_assoc]

@[simp]
theorem acceptedData_singleton (session : Session) (occurrence : Occurrence) :
    session.acceptedData secret [occurrence] = session.accepted secret occurrence := by
  simp [acceptedData]

/-- The sessions that some history leads to. -/
def Reachable (session : Session) : Prop :=
  ∃ history : List Occurrence, fresh.run secret history = session

end Session

end NearSigner
