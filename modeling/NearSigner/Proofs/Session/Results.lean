import NearSigner.Proofs.Frame.Commands
import NearSigner.Proofs.Session.Dialogue

/-!
# The results of turns

A turn first produces a result, or nothing, and the result is then put into a
reply.  Both steps are given in a few cases: what is produced, by what it does
to the review in progress, and the reply, by whether the payload fits.
-/

namespace NearSigner

/-- The capacity of the buffer for the reply to a turn. -/
def Turn.capacity (turn : Turn) : Nat :=
  match turn.stimulus with
  | .frame capacity _ => capacity
  | .input capacity _ => capacity

theorem Command.isOfCommand_of_reads {frame : Frame} {refusal : Refusal}
    (reads : Command.Reads frame (.error refusal)) : refusal.isOfCommand = true := by
  cases reads <;> rfl

/-- The octets of a request carry what it asks for. -/
theorem Command.ofOctets_of_asks {request : Request} {p1 : UInt8} {command : Command}
    (asks : request.Asks p1 command) :
    Command.ofOctets (request.frame p1).bytes = .ok command := by
  have counted : (request.frame p1).data.length ≤ Frame.maxData := asks.counted
  simp only [Command.ofOctets, Frame.decode_bytes counted]
  exact Command.ofFrame_of_reads asks.reads

theorem Command.isOfCommand_of_ofOctets {octets : Bytes} {refusal : Refusal}
    (refused : Command.ofOctets octets = .error refusal) : refusal.isOfCommand = true := by
  rcases decoded : Frame.decode octets with reason | ⟨frame, used⟩
  · simp only [Command.ofOctets, decoded, Except.error.injEq] at refused
    rw [← refused]
    rfl
  · simp only [Command.ofOctets, decoded] at refused
    exact Command.isOfCommand_of_reads (Command.ofFrame_eq_iff.mp refused)

namespace Session

/-- What the review in progress is about, and what it shows. -/
def matter? (session : Session) : Option (Subject × Plan) :=
  match session.phase with
  | .reviewing => session.pending.map fun review => (review.subject, review.plan)
  | _ => none

theorem matter?_of_not_reviewing {session : Session} (outside : session.phase ≠ .reviewing) :
    session.matter? = none := by
  rcases session with ⟨phase, fragments, pending⟩
  cases phase with
  | reviewing => exact absurd rfl outside
  | _ => rfl

theorem Coherent.isSome_matter?_iff {session : Session} (coherent : Coherent session) :
    session.matter?.isSome = true ↔ session.phase = .reviewing := by
  cases coherent with
  | reviewing shows inside => exact iff_of_true rfl rfl
  | _ => exact iff_of_false Bool.false_ne_true Phase.noConfusion

/-! ## Replies and their results -/

/-- The reply to a result and the session afterwards. -/
inductive Replied (capacity : Nat) (session : Session) :
    Except Refusal Answer → Reply × Session → Prop
  | refused {refusal : Refusal} {status : Status} (reported : refusal.status = status) :
      Replied capacity session (.error refusal) (.complete status [], session)
  | deferred : Replied capacity session (.ok .pending) (.deferred, session)
  | sent {answer : Answer} (settled : answer ≠ .pending)
      (fits : answer.payload.length ≤ capacity) :
      Replied capacity session (.ok answer) (.complete .success answer.payload, session)
  | overlong {answer : Answer} (settled : answer ≠ .pending)
      (overlong : capacity < answer.payload.length) :
      Replied capacity session (.ok answer) (.complete .internal [], fresh)

theorem reply_answer {answer : Answer} (settled : answer ≠ .pending) (capacity : Nat)
    (session : Session) :
    session.reply capacity (.ok answer) =
      if capacity < answer.payload.length then
        (.complete .internal [], fresh)
      else
        (.complete .success answer.payload, session) := by
  by_cases long : capacity < answer.payload.length
  · have overlong : answer.encode capacity = .error .invalidLength := if_pos long
    cases answer with
    | pending => exact absurd rfl settled
    | _ =>
        simp only [reply, overlong, if_pos long]
        rfl
  · have encoded : answer.encode capacity = .ok answer.payload := if_neg long
    cases answer with
    | pending => exact absurd rfl settled
    | _ => simp only [reply, encoded, if_neg long]

theorem replied (capacity : Nat) (session : Session) (result : Except Refusal Answer) :
    Replied capacity session result (session.reply capacity result) := by
  rcases result with refusal | answer
  · exact .refused rfl
  · by_cases pending : answer = .pending
    · subst pending
      exact .deferred
    · rw [reply_answer pending]
      by_cases long : capacity < answer.payload.length
      · rw [if_pos long]
        exact .overlong pending long
      · rw [if_neg long]
        exact .sent pending (Nat.not_lt.mp long)

/-! ## The results of turns -/

variable (secret : Path → Block 32)

/-- What a turn produces, before it is put into a reply, and the session by
then. -/
def produce (session : Session) (turn : Turn) : Option (Except Refusal Answer) × Session :=
  match turn.stimulus with
  | .frame _ octets =>
      match Command.ofOctets octets with
      | .error refusal => (some (.error (session.fail refusal).1), (session.fail refusal).2)
      | .ok command =>
          (some (session.update (turn.device secret) command).1,
            (session.update (turn.device secret) command).2)
  | .input _ input => session.input (turn.device secret) input

/-- The reply to what a turn has produced, and the session afterwards. -/
inductive Responded (turn : Turn) :
    Option (Except Refusal Answer) × Session → Option Reply × Session → Prop
  | silent (next : Session) : Responded turn (none, next) (none, next)
  | replied {result : Except Refusal Answer} {next after : Session} {reply : Reply}
      (replied : Replied turn.capacity next result (reply, after)) :
      Responded turn (some result, next) (some reply, after)

/-- The reply to a turn is the reply to what it produces. -/
theorem responded (session : Session) (turn : Turn) :
    Responded turn (session.produce secret turn) (session.respond secret turn) := by
  rcases turn with ⟨setting, ⟨capacity, octets⟩ | ⟨capacity, input⟩⟩
  · rcases carried : Command.ofOctets octets with refusal | command
    · simp only [respond, produce, carried, handleFrame_of_refused carried]
      exact .replied (.refused rfl)
    · simp only [respond, produce, carried, handleFrame_of_command carried]
      exact .replied (replied capacity _ _)
  · rcases taken : session.input ⟨secret, setting⟩ input with ⟨result, next⟩
    cases result with
    | none =>
        simp only [respond, produce, Turn.device, taken, handleInput_of_none taken]
        exact .silent next
    | some result =>
        simp only [respond, produce, Turn.device, taken, handleInput_of_some taken]
        exact .replied (replied capacity next result)

variable {secret}

/-- The turn brings a command that concerns a path, behind the part of a message
that the session holds. -/
def Asked (session : Session) (turn : Turn) (path : Path) : Prop :=
  ∃ capacity octets command, turn.stimulus = .frame capacity octets ∧
    Command.ofOctets octets = .ok command ∧ command.Concerns session.fragments.buffer path

theorem Asked.isInput_eq_false {session : Session} {turn : Turn} {path : Path}
    (asked : session.Asked turn path) : turn.isInput = false := by
  rcases asked with ⟨capacity, octets, command, given, _⟩
  rw [Turn.isInput, given]

/-- What a turn produces in a session, and the session by then. -/
inductive Produced (secret : Path → Block 32) (turn : Turn) (session : Session) :
    Option (Except Refusal Answer) × Session → Prop
  | answered {result : Except Refusal Answer} {next : Session} (byHost : turn.isInput = false)
      (encodes : result ≠ .error .encodingFailed) (settled : result ≠ .ok .pending)
      (same : next.matter? = session.matter?) :
      Produced secret turn session (some result, next)
  | opened {path : Path} {next : Session} {subject : Subject} {plan : Plan}
      (asked : session.Asked turn path) (under : subject.Under secret path)
      (outside : session.matter? = none) (begun : next.matter? = some (subject, plan)) :
      Produced secret turn session (some (.ok .pending), next)
  | unheard {capacity : Nat} {input : Input} {next : Session}
      (given : turn.stimulus = .input capacity input) (same : next.matter? = session.matter?)
      (goesOn : session.matter?.isSome = true →
        input ≠ .reject ∧ (input = .confirm → session.shownEntry? ≠ none)) :
      Produced secret turn session (none, next)
  | rejected {capacity : Nat} (given : turn.stimulus = .input capacity .reject)
      (underReview : session.matter?.isSome = true) :
      Produced secret turn session (some (.error .userRejected), fresh)
  | approved {capacity : Nat} {subject : Subject} {plan : Plan} {response : Response}
      (given : turn.stimulus = .input capacity .confirm)
      (underReview : session.matter? = some (subject, plan))
      (last : session.shownEntry? = none)
      (released : Released (turn.device secret) session.fragments subject response) :
      Produced secret turn session (some (.ok (.response response)), fresh)

variable {session : Session} {turn : Turn}

theorem Gathering.buffer_eq {data : Bytes} (gathering : Gathering data session) :
    session.fragments.buffer = data := by
  cases gathering with
  | fresh => rfl
  | collecting data => rfl

theorem Produced.of_refused {setting : Bool} {capacity : Nat} {octets : Bytes} {refusal : Refusal}
    (refused : Command.ofOctets octets = .error refusal) (session : Session) :
    Produced secret ⟨setting, .frame capacity octets⟩ session
      (some (.error (session.fail refusal).1), (session.fail refusal).2) := by
  by_cases underReview : session.phase = .reviewing
  · rw [fail_of_reviewing underReview]
    exact .answered rfl nofun nofun rfl
  · rw [fail_of_not_reviewing underReview]
    apply Produced.answered rfl
    · rintro ⟨rfl⟩
      exact absurd (Command.isOfCommand_of_ofOctets refused) Bool.false_ne_true
    · nofun
    · exact (matter?_of_not_reviewing underReview).symm

theorem Produced.of_updated {setting : Bool} {capacity : Nat} {octets : Bytes}
    {command : Command} {outcome : Except Refusal Answer × Session}
    (carried : Command.ofOctets octets = .ok command)
    (updated : Updated ⟨secret, setting⟩ command session outcome) :
    Produced secret ⟨setting, .frame capacity octets⟩ session (some outcome.1, outcome.2) := by
  cases updated with
  | nothing asked => exact .answered rfl nofun nofun rfl
  | version asked => exact .answered rfl nofun nofun rfl
  | busy active underReview => exact .answered rfl nofun nofun rfl
  | refused active outside ofCommand =>
      apply Produced.answered rfl
      · rintro ⟨rfl⟩
        cases ofCommand
      · nofun
      · exact (matter?_of_not_reviewing outside).symm
  | gathered gathering asked fits =>
      exact .answered rfl nofun nofun (matter?_of_not_reviewing gathering.phase_ne_reviewing).symm
  | disclosed account asked => exact .answered rfl nofun nofun rfl
  | opened gathering opens account concerns under =>
      rw [← gathering.buffer_eq] at concerns
      exact .opened ⟨capacity, octets, command, rfl, carried, concerns⟩ under
        (matter?_of_not_reviewing gathering.phase_ne_reviewing) rfl

theorem Produced.of_taken {setting : Bool} {capacity : Nat} {input : Input}
    {outcome : Option (Except Refusal Answer) × Session}
    (taken : Taken ⟨secret, setting⟩ input session outcome) :
    Produced secret ⟨setting, .input capacity input⟩ session outcome := by
  cases taken with
  | ignored outside =>
      refine .unheard rfl rfl ?_
      rw [matter?_of_not_reviewing outside]
      nofun
  | rejected rejects =>
      subst rejects
      exact .rejected rfl rfl
  | approved confirms released =>
      subst confirms
      exact .approved rfl rfl (if_neg (Nat.lt_irrefl _)) released
  | @turned fragments subject plan page shown turns inside adjacent shownInside =>
      refine .unheard rfl rfl fun _ => ?_
      constructor
      · rintro rfl
        cases turns
      · rintro rfl shown_eq
        obtain rfl := (shownEntry?_reviewing_eq_none_iff inside).mp shown_eq
        change (if plan.length = plan.length then Approval.approved else _) = _ at turns
        rw [if_pos rfl] at turns
        cases turns

theorem Coherent.produced (coherent : Coherent session) (secret : Path → Block 32) (turn : Turn) :
    Produced secret turn session (session.produce secret turn) := by
  rcases turn with ⟨setting, ⟨capacity, octets⟩ | ⟨capacity, input⟩⟩
  · rcases carried : Command.ofOctets octets with refusal | command
    · simp only [produce, carried]
      exact .of_refused carried session
    · simp only [produce, carried]
      exact .of_updated carried (coherent.updated ⟨secret, setting⟩ command)
  · exact .of_taken (coherent.taken ⟨secret, setting⟩ input)

theorem Produced.ne_encodingFailed {refusal : Refusal} {next : Session}
    (produced : Produced secret turn session (some (.error refusal), next)) :
    refusal ≠ .encodingFailed := by
  cases produced with
  | answered byHost encodes settled same =>
      rintro rfl
      exact encodes rfl
  | rejected given underReview => nofun

end Session

end NearSigner
