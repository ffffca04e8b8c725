import NearSigner.Proofs.Session.Namespace

/-!
# Secrets and signatures

Requests to sign say nothing of the secrets of a device until one is approved.
As long as no key is asked for, two devices give the same replies and show the
same reviews, whatever their secrets are.  All that can tell them apart are the
signatures that they release, and these they release at the same time.
-/

namespace NearSigner

/-- The commands that ask for a public key. -/
inductive Command.AsksForKey : Command → Prop
  | getPublicKey (path : Path) (confirm : Bool) : AsksForKey (.getPublicKey path confirm)
  | getWalletId (path : Path) : AsksForKey (.getWalletId path)

namespace Turn

/-- The turn brings a command that asks for a public key. -/
def AsksForKey (turn : Turn) : Prop :=
  ∃ capacity octets command, turn.stimulus = .frame capacity octets ∧
    Command.ofOctets octets = .ok command ∧ command.AsksForKey

/-- Two replies to a turn that differ in the octets of a signature at most.  A
success in reply to an input always brings a signature. -/
inductive Alike (turn : Turn) : Option Reply → Option Reply → Prop
  | same {reply : Option Reply}
      (undisclosing : turn.isInput = true → ∀ payload, reply ≠ some (.complete .success payload)) :
      Alike turn reply reply
  | signed {capacity : Nat} (given : turn.stimulus = .input capacity .confirm)
      (first second : Block 64) :
      Alike turn (some (.complete .success first.toBytes))
        (some (.complete .success second.toBytes))

namespace Alike

variable {turn : Turn}

theorem silent : turn.Alike none none := by
  apply Alike.same
  intro byUser payload succeeded
  cases succeeded

theorem refused (refusal : Refusal) :
    turn.Alike (some (Reply.refused refusal)) (some (Reply.refused refusal)) := by
  apply Alike.same
  intro byUser payload succeeded
  have status_eq : refusal.status = .success := (Reply.complete.inj (Option.some.inj succeeded)).1
  exact Refusal.status_ne_success refusal status_eq

theorem of_host (byHost : turn.isInput = false) (reply : Option Reply) :
    turn.Alike reply reply := by
  apply Alike.same
  intro byUser
  rw [byHost] at byUser
  cases byUser

end Alike

end Turn

/-- What two devices show in the course of a dialogue differs in the octets of
the signatures at most. -/
inductive Observation.AlikeAlong : List Turn → List Observation → List Observation → Prop
  | nil : AlikeAlong [] [] []
  | cons {turn : Turn} {later : List Turn} {one other : Observation}
      {ones others : List Observation} (reply : turn.Alike one.reply other.reply)
      (phase : one.phase = other.phase) (plan : one.plan = other.plan)
      (approval : one.approval = other.approval) (shown : one.shownEntry = other.shownEntry)
      (rest : AlikeAlong later ones others) :
      AlikeAlong (turn :: later) (one :: ones) (other :: others)

namespace Session

variable {session : Session}

/-- Whatever waits for an approval is a signature. -/
def SignsOnly (session : Session) : Prop :=
  ∀ review, session.pending = some review →
    ∃ path payload, review.subject = .signature path payload

theorem SignsOnly.fresh : SignsOnly fresh := nofun

theorem SignsOnly.reply (signsOnly : SignsOnly session) (capacity : Nat)
    (result : Except Refusal Answer) : SignsOnly (session.reply capacity result).2 := by
  rcases reply_kept_or_reset session capacity result with kept | reset
  · rw [kept]
    exact signsOnly
  · rw [reset]
    exact .fresh

/-! ## Commands -/

theorem update_eq_of_keyless {first second : Device}
    (same : first.blindSigning = second.blindSigning) {command : Command}
    (keyless : ¬command.AsksForKey) (session : Session) :
    session.update first command = session.update second command := by
  rcases session with ⟨phase, fragments, pending⟩
  cases command with
  | getPublicKey path confirm => exact absurd (.getPublicKey path confirm) keyless
  | getWalletId path => exact absurd (.getWalletId path) keyless
  | blindSign data =>
      cases phase with
      | idle =>
          exact congrArg (fun attempt => settled (attempt.runOn ⟨.idle, fragments, pending⟩))
            (Attempt.blindSign_eq same data)
      | _ => rfl
  | _ => cases phase <;> rfl

theorem signsOnly_received (last : Bool) (data : Bytes) : SignsOnly (received last data).2 := by
  by_cases fits : data.length ≤ maxMessage
  · cases last with
    | false =>
        rw [received_more fits]
        nofun
    | true =>
        rw [received_last fits]
        rcases asked : reviewOf data with refusal | review
        · rw [completed_of_error asked]
          exact .fresh
        · rw [completed_of_ok asked]
          rcases reviewOf_eq_ok_iff.mp asked with ⟨path, octets, _, _, _, rfl⟩
          rintro opened ⟨rfl⟩
          exact ⟨path, .transaction, rfl⟩
  · rw [received_oversized (Nat.not_le.mp fits)]
    exact .fresh

theorem signsOnly_update_blindSign (device : Device) (data : Bytes) :
    SignsOnly (fresh.update device (.blindSign data)).2 := by
  rw [update_blindSign]
  by_cases allowed : device.blindSigning = true
  · rw [if_pos allowed]
    rcases Request.decodeBlind data with reason | ⟨path, hash⟩
    · exact .fresh
    · by_cases account : path.isAccount = true
      · simp only [if_pos account]
        rintro opened ⟨rfl⟩
        exact ⟨path, .hash hash, rfl⟩
      · simp only [if_neg account]
        exact .fresh
  · rw [if_neg allowed]
    exact .fresh

/-- Only a command that asks for a key makes a key wait for an approval. -/
theorem SignsOnly.update (signsOnly : SignsOnly session) (coherent : Coherent session)
    (device : Device) {command : Command} (keyless : ¬command.AsksForKey) :
    SignsOnly (session.update device command).2 := by
  cases coherent.encounter command with
  | passive passive =>
      rcases update_passive device passive session with ⟨answer, updated⟩
      rw [updated]
      exact signsOnly
  | fragment gathering asked =>
      rw [asked, update_signChunk device gathering]
      exact signsOnly_received _ _
  | request active other =>
      cases command with
      | nothing => exact absurd .nothing active
      | getConfiguration => exact absurd .getConfiguration active
      | getPublicKey path confirm => exact absurd (.getPublicKey path confirm) keyless
      | getWalletId path => exact absurd (.getWalletId path) keyless
      | signChunk last fragment => exact absurd rfl (other last fragment)
      | blindSign data => exact signsOnly_update_blindSign device data
  | outOfSequence active other =>
      rw [update_collecting device active other]
      exact .fresh
  | busy active =>
      rw [update_reviewing device active]
      exact signsOnly

/-! ## Inputs -/

/-- The outcomes of one input on two devices. -/
inductive TakenAlike (input : Input) :
    Option (Except Refusal Answer) × Session → Option (Except Refusal Answer) × Session → Prop
  | silent {next : Session} (signsOnly : SignsOnly next) :
      TakenAlike input (none, next) (none, next)
  | rejected : TakenAlike input (some (.error .userRejected), fresh)
      (some (.error .userRejected), fresh)
  | signed (confirms : input = .confirm) (first second : Block 64) :
      TakenAlike input (some (.ok (.response (.signature first))), fresh)
        (some (.ok (.response (.signature second))), fresh)

theorem Shows.exists_signature {fragments : Reassembly} {path : Path} {payload : Payload}
    {plan : Plan} (shows : Shows fragments (.signature path payload) plan) (device : Device)
    (approval : Approval) :
    ∃ signature, (reviewing fragments
        { subject := .signature path payload, plan, approval }).release device
          { subject := .signature path payload, plan, approval := .approved } =
        .ok (.response (.signature signature)) := by
  rcases shows.exists_released device _ with ⟨response, released, release_eq⟩
  cases released with
  | hash account hash => exact ⟨_, release_eq⟩
  | transaction account => exact ⟨_, release_eq⟩

/-- The secrets play a part only once the user has approved. -/
theorem Coherent.taken_alike (coherent : Coherent session) (signsOnly : SignsOnly session)
    (first second : Device) (input : Input) :
    TakenAlike input (session.input first input) (session.input second input) := by
  by_cases underReview : session.phase = .reviewing
  · rcases coherent.exists_reviewing underReview with
      ⟨fragments, subject, plan, page, shows, inside, rfl⟩
    obtain ⟨path, payload, rfl⟩ := signsOnly _ rfl
    simp only [input_reviewing, Review.next]
    rcases Approval.next_reviewing page plan.length input with
      ⟨_, next_eq⟩ | ⟨confirms, _, next_eq⟩ | ⟨shown, next_eq, _, _⟩
    · simp only [next_eq]
      exact .rejected
    · rcases shows.exists_signature first (.reviewing page plan.length) with ⟨one, one_eq⟩
      rcases shows.exists_signature second (.reviewing page plan.length) with ⟨other, other_eq⟩
      simp only [next_eq, one_eq, other_eq]
      exact .signed confirms one other
    · simp only [next_eq]
      apply TakenAlike.silent
      rintro review ⟨rfl⟩
      exact ⟨path, payload, rfl⟩
  · rw [input_of_not_reviewing first underReview, input_of_not_reviewing second underReview]
    exact .silent signsOnly

/-! ## Dialogues -/

variable {first second : Path → Block 32}

/-- What a turn does on two devices: the replies differ in a signature at most, and
the sessions afterwards do not differ at all. -/
inductive RespondedAlike (turn : Turn) : Option Reply × Session → Option Reply × Session → Prop
  | intro {one other : Option Reply} {next : Session} (reply : turn.Alike one other)
      (signsOnly : SignsOnly next) : RespondedAlike turn (one, next) (other, next)

theorem RespondedAlike.of_taken {turn : Turn} {capacity : Nat} {input : Input}
    (given : turn.stimulus = .input capacity input)
    (taken : TakenAlike input (session.input (turn.device first) input)
      (session.input (turn.device second) input)) :
    RespondedAlike turn (session.respond first turn) (session.respond second turn) := by
  simp only [respond, given]
  generalize one_eq : session.input (turn.device first) input = one at taken
  generalize other_eq : session.input (turn.device second) input = other at taken
  cases taken with
  | silent signsOnly =>
      rw [handleInput_of_none one_eq, handleInput_of_none other_eq]
      exact .intro .silent signsOnly
  | rejected =>
      rw [handleInput_of_some one_eq, handleInput_of_some other_eq]
      exact .intro (.refused .userRejected) .fresh
  | signed confirms one other =>
      subst confirms
      have settled (signature : Block 64) : Answer.response (.signature signature) ≠ .pending := by
        simp
      have payload_length (signature : Block 64) :
          (Answer.response (.signature signature)).payload.length = 64 := by
        simp [Answer.payload, Response.payload]
      rw [handleInput_of_some one_eq, handleInput_of_some other_eq, reply_answer (settled one),
        reply_answer (settled other), payload_length, payload_length]
      by_cases overlong : capacity < 64
      · rw [if_pos overlong, if_pos overlong]
        exact .intro (.refused .encodingFailed) .fresh
      · rw [if_neg overlong, if_neg overlong]
        exact .intro (.signed given one other) .fresh

theorem Coherent.responded_alike (coherent : Coherent session) (signsOnly : SignsOnly session)
    {turn : Turn} (keyless : ¬turn.AsksForKey) :
    RespondedAlike turn (session.respond first turn) (session.respond second turn) := by
  rcases given : turn.stimulus with ⟨capacity, octets⟩ | ⟨capacity, input⟩
  · have byHost : turn.isInput = false := by rw [Turn.isInput, given]
    rcases carried : Command.ofOctets octets with refusal | command
    · simp only [respond, given, handleFrame_of_refused carried]
      apply RespondedAlike.intro (.of_host byHost _)
      change SignsOnly (session.fail refusal).2
      by_cases underReview : session.phase = .reviewing
      · rw [fail_of_reviewing underReview]
        exact signsOnly
      · rw [fail_of_not_reviewing underReview]
        exact .fresh
    · have asksForNoKey : ¬command.AsksForKey := fun asks =>
        keyless ⟨capacity, octets, command, given, carried, asks⟩
      have same : (turn.device first).blindSigning = (turn.device second).blindSigning := rfl
      have update_eq := update_eq_of_keyless same asksForNoKey session
      simp only [respond, given, handleFrame_of_command carried, update_eq]
      exact .intro (.of_host byHost _) ((signsOnly.update coherent _ asksForNoKey).reply _ _)
  · exact .of_taken given (coherent.taken_alike signsOnly _ _ input)

/-- Two devices whose settings for the signing of hashes agree cannot be told
apart before an approval, whatever their secrets are.  In every dialogue that
asks for no key they are in the same session after each turn, show the same, and
give the same replies, but for the octets of the signatures.  Signatures are all
that a success in reply to an input brings, and both devices release them at the
same turns. -/
theorem secrets_show_in_signatures_only {turns : List Turn}
    (keyless : ∀ turn ∈ turns, ¬turn.AsksForKey) (first second : Path → Block 32) :
    fresh.converse first turns = fresh.converse second turns ∧
      Observation.AlikeAlong turns (fresh.transcript first turns)
        (fresh.transcript second turns) := by
  -- Both devices are in one session all the time, so it is enough to follow the first.
  suffices general : ∀ session, Reachable first session → SignsOnly session →
      session.converse first turns = session.converse second turns ∧
        Observation.AlikeAlong turns (session.transcript first turns)
          (session.transcript second turns) from
    general fresh ⟨[], rfl⟩ .fresh
  induction turns with
  | nil =>
      intro session reachable signsOnly
      rw [converse_nil, converse_nil]
      exact ⟨rfl, .nil⟩
  | cons turn later ih =>
      intro session reachable signsOnly
      have responded : RespondedAlike turn (session.respond first turn)
          (session.respond second turn) :=
        reachable.coherent.responded_alike signsOnly (keyless turn List.mem_cons_self)
      have next_reachable := reachable.respond turn
      simp only [converse_cons, transcript]
      generalize session.respond first turn = one at responded next_reachable
      generalize session.respond second turn = other at responded
      cases responded with
      | intro reply next_signsOnly =>
          have goesOn := ih (fun turn among => keyless turn (List.mem_cons_of_mem _ among)) _
            next_reachable next_signsOnly
          exact ⟨goesOn.1, .cons reply rfl rfl rfl rfl goesOn.2⟩

/-- A hash is sent, reviewed and approved on two devices that have no secret in
common. -/
theorem secrets_show_in_signature_of_hash :
    let first : Path → Block 32 := fun _ => Vector.replicate 32 7
    let second : Path → Block 32 := fun _ => Vector.replicate 32 8
    let request : Request := .blindSign (Path.ofAccount 3) (Vector.replicate 32 9)
    let turns : List Turn := [⟨true, .frame 64 (request.frame 0x01).bytes⟩,
      ⟨false, .input 64 .next⟩, ⟨false, .input 64 .confirm⟩]
    (∀ path, first path ≠ second path) ∧ (∀ turn ∈ turns, ¬turn.AsksForKey) ∧
    fresh.converse first turns = fresh.converse second turns ∧
    Observation.AlikeAlong turns (fresh.transcript first turns)
      (fresh.transcript second turns) := by
  intro first second request turns
  have keyless : ∀ turn ∈ turns, ¬turn.AsksForKey := by
    rintro turn among ⟨capacity, octets, command, given, carried, asks⟩
    simp only [turns, List.mem_cons, List.not_mem_nil, or_false] at among
    rcases among with rfl | rfl | rfl
    · cases given
      rw [Command.ofOctets_of_asks (.blindSign _ _)] at carried
      cases carried
      cases asks
    · cases given
    · cases given
  exact ⟨fun _ => by decide, keyless, secrets_show_in_signatures_only keyless first second⟩

end Session

end NearSigner
