import NearSigner.Proofs.Session.Exclusion

/-!
# Requests for the version

A request for the version is answered at any time, and reads nothing of the
session.  Whether it leaves the session alone is decided behind the session, where
the reply is written: with room for the version it does, in every phase, and
dialogues go on as if it had not come; with less room the session is reset, and a
review or a message that has arrived in part is lost.
-/

namespace NearSigner

namespace Turn

/-- Whether the turn is a frame that asks for the version. -/
def asksForVersion (turn : Turn) : Bool :=
  match turn.stimulus with
  | .frame _ octets =>
      match Command.ofOctets octets with
      | .ok .getConfiguration => true
      | _ => false
  | .input _ _ => false

theorem exists_frame_of_asksForVersion {turn : Turn} (asks : turn.asksForVersion = true) :
    ∃ setting capacity octets, turn = ⟨setting, .frame capacity octets⟩ ∧
      Command.ofOctets octets = .ok .getConfiguration := by
  rcases turn with ⟨setting, ⟨capacity, octets⟩ | ⟨capacity, input⟩⟩
  · rw [asksForVersion] at asks
    dsimp only at asks
    split at asks
    · exact ⟨setting, capacity, octets, rfl, ‹_›⟩
    · cases asks
  · cases asks

end Turn

namespace Session

variable {secret : Path → Block 32} {session : Session}

/-! ## Single requests -/

/-- A session that can be reached has something to lose unless it is idle. -/
theorem Coherent.handleFrame_getConfiguration_eq_iff (coherent : Coherent session)
    {octets : Bytes} (carried : Command.ofOctets octets = .ok .getConfiguration)
    (device : Device) (capacity : Nat) :
    (session.handleFrame device capacity octets).2 = session ↔
      3 ≤ capacity ∨ session.phase = .idle := by
  rw [handleFrame_getConfiguration carried]
  by_cases short : capacity < 3
  · rw [if_pos short]
    constructor
    · intro same
      exact .inr (congrArg Session.phase same).symm
    · rintro (roomy | idle)
      · exact absurd roomy (Nat.not_le.mpr short)
      · exact (coherent.eq_fresh idle).symm
  · rw [if_neg short]
    exact iff_of_true rfl (.inl (Nat.not_lt.mp short))

/-- Whether a session is idle shows at the next turn, if that is an input that turns a
page. -/
theorem Coherent.eq_fresh_of_transcript_eq (coherent : Coherent session)
    (alike : Session.fresh.transcript secret [⟨false, .input 0 .next⟩] =
      session.transcript secret [⟨false, .input 0 .next⟩]) : Session.fresh = session := by
  have phase_eq := congrArg Observation.phase (List.cons.inj alike).1
  cases coherent with
  | fresh => rfl
  | collecting fits => cases phase_eq
  | reviewing shows inside => cases phase_eq

theorem respond_of_asksForVersion {turn : Turn} (asks : turn.asksForVersion = true)
    (roomy : 3 ≤ turn.capacity) (session : Session) :
    session.respond secret turn =
      (some (.complete .success applicationVersion.bytes), session) := by
  obtain ⟨setting, capacity, octets, rfl, carried⟩ := Turn.exists_frame_of_asksForVersion asks
  have long : ¬capacity < 3 := Nat.not_lt.mpr roomy
  have handled := handleFrame_getConfiguration carried ⟨secret, setting⟩ capacity session
  rw [if_neg long] at handled
  simp only [respond, Turn.device, handled]

/-! ## Dialogues with requests

With room for every answer a dialogue has the course that it has without its
requests for the version.
-/

/-- What can be seen after the turns of a dialogue that are no requests for the version. -/
def othersTranscript (secret : Path → Block 32) (session : Session) (turns : List Turn) :
    List Observation :=
  ((turns.zip (session.transcript secret turns)).filter (!·.1.asksForVersion)).map Prod.snd

/-- There is room for the version in the reply to every request for it. -/
def RoomForVersion (turns : List Turn) : Prop :=
  ∀ turn ∈ turns, turn.asksForVersion = true → 3 ≤ turn.capacity

instance (turns : List Turn) : Decidable (RoomForVersion turns) :=
  inferInstanceAs (Decidable (∀ turn ∈ turns, turn.asksForVersion = true → 3 ≤ turn.capacity))

/-- Without its requests for the version a dialogue comes to the same. -/
theorem converse_eq_converse_others {turns : List Turn} (roomy : RoomForVersion turns) :
    session.converse secret turns =
      session.converse secret (turns.filter (!·.asksForVersion)) := by
  induction turns generalizing session with
  | nil => rfl
  | cons turn later ih =>
      obtain ⟨room, laterRoomy⟩ := List.forall_mem_cons.mp roomy
      cases asks : turn.asksForVersion with
      | true =>
          rw [converse_cons, respond_of_asksForVersion asks (room asks),
            List.filter_cons_of_neg (by simp [asks])]
          exact ih laterRoomy
      | false =>
          rw [List.filter_cons_of_pos (by simp [asks]), converse_cons, converse_cons]
          exact ih laterRoomy

theorem othersTranscript_cons (secret : Path → Block 32) (session : Session) (turn : Turn)
    (later : List Turn) :
    session.othersTranscript secret (turn :: later) =
      let (reply, next) := session.respond secret turn
      if turn.asksForVersion then next.othersTranscript secret later
      else next.observe reply :: next.othersTranscript secret later := by
  cases asks : turn.asksForVersion <;> simp [othersTranscript, transcript, asks]

/-- What can be seen after the other turns is what can be seen without the requests. -/
theorem othersTranscript_eq {turns : List Turn} (roomy : RoomForVersion turns) :
    session.othersTranscript secret turns =
      session.transcript secret (turns.filter (!·.asksForVersion)) := by
  induction turns generalizing session with
  | nil => rfl
  | cons turn later ih =>
      obtain ⟨room, laterRoomy⟩ := List.forall_mem_cons.mp roomy
      rw [othersTranscript_cons]
      cases asks : turn.asksForVersion with
      | true =>
          rw [respond_of_asksForVersion asks (room asks),
            List.filter_cons_of_neg (by simp [asks])]
          exact ih laterRoomy
      | false =>
          rw [List.filter_cons_of_pos (by simp [asks]), transcript]
          exact congrArg (List.cons _) (ih laterRoomy)

/-- A request for the version leaves the session as it was if there is room for the
answer, and if the session is idle.  Otherwise the session is reset: a review, or a
message that has arrived in part, is lost, and this can be seen from outside. -/
theorem version_request_leaves_no_trace_iff (reachable : Reachable secret session)
    {octets : Bytes} (carried : Command.ofOctets octets = .ok .getConfiguration)
    (device : Device) (capacity : Nat) :
    let outcome := session.handleFrame device capacity octets
    (outcome.2 = session ↔ 3 ≤ capacity ∨ session.phase = .idle) ∧
    ((∀ turns, outcome.2.transcript secret turns = session.transcript secret turns) ↔
      3 ≤ capacity ∨ session.phase = .idle) ∧
    (3 ≤ capacity → outcome = (.complete .success [1, 2, 0], session)) ∧
    (capacity < 3 → outcome = (.complete .internal [], fresh)) := by
  intro outcome
  have outcome_eq : outcome = if capacity < 3 then (.complete .internal [], fresh)
      else (.complete .success applicationVersion.bytes, session) :=
    handleFrame_getConfiguration carried device capacity session
  have same_iff : outcome.2 = session ↔ 3 ≤ capacity ∨ session.phase = .idle :=
    reachable.coherent.handleFrame_getConfiguration_eq_iff carried device capacity
  constructor
  · exact same_iff
  constructor
  · constructor
    · intro alike
      by_cases short : capacity < 3
      · rw [outcome_eq, if_pos short] at alike same_iff
        exact same_iff.mp (reachable.coherent.eq_fresh_of_transcript_eq (alike _))
      · exact .inl (Nat.not_lt.mp short)
    · intro kept turns
      rw [same_iff.mpr kept]
  constructor
  · intro roomy
    exact outcome_eq.trans (if_neg (Nat.not_lt.mpr roomy))
  · intro short
    exact outcome_eq.trans (if_pos short)

/-- While the first part of a message is held, a request for the version is answered
and leaves it; one without room for the answer drops it. -/
theorem version_request_leaves_no_trace_behind_part :
    let secret : Path → Block 32 := fun _ => Vector.replicate 32 7
    let held := fresh.converse secret [⟨false, .frame 0 [0x80, 0x02, 0, 0, 2, 1, 2]⟩]
    let request : Bytes := [0x80, 0x06, 5, 0, 1, 9]
    held = collecting [1, 2] ∧ Command.ofOctets request = .ok .getConfiguration ∧
    held.handleFrame ⟨secret, true⟩ 3 request = (.complete .success [1, 2, 0], held) ∧
    held.handleFrame ⟨secret, true⟩ 2 request = (.complete .internal [], fresh) ∧
    ¬∀ turns, fresh.transcript secret turns = held.transcript secret turns := by
  intro secret held request
  have reachable : Reachable secret held := Reachable.converse ⟨[], rfl⟩ _
  have carried : Command.ofOctets request = .ok .getConfiguration := rfl
  obtain ⟨_, _, answered, _⟩ :=
    version_request_leaves_no_trace_iff reachable carried ⟨secret, true⟩ 3
  obtain ⟨_, alike_iff, _, reset⟩ :=
    version_request_leaves_no_trace_iff reachable carried ⟨secret, true⟩ 2
  have dropped := reset (by decide)
  rw [dropped] at alike_iff
  have lost : ¬(3 ≤ 2 ∨ held.phase = .idle) := by
    rintro (roomy | idle)
    · exact absurd roomy (by decide)
    · cases idle
  exact ⟨rfl, carried, answered (Nat.le_refl 3), dropped, mt alike_iff.mp lost⟩

/-- A key is under review, and the request for the version, which has no room for the
answer, ends the review. -/
theorem version_request_without_room_ends_review :
    let secret : Path → Block 32 := fun _ => Vector.replicate 32 7
    let asked := fresh.converse secret [⟨false, .frame 2 [0x80, 0x04, 0, 0x57, 20,
      0x80, 0, 0, 44, 0x80, 0, 1, 141, 0x80, 0, 0, 0, 0x80, 0, 0, 0, 0x80, 0, 0, 1]⟩]
    let next := asked.handleFrame ⟨secret, false⟩ 2 [0x80, 0x06, 0, 0, 0]
    Reachable secret asked ∧ asked.phase = .reviewing ∧
    Command.ofOctets [0x80, 0x06, 0, 0, 0] = .ok .getConfiguration ∧
    next = (.complete .internal [], fresh) ∧ next.2 ≠ asked := by
  intro secret asked next
  have reachable : Reachable secret asked := Reachable.converse ⟨[], rfl⟩ _
  have underReview : asked.phase = .reviewing := rfl
  have ended : next = (.complete .internal [], fresh) := rfl
  refine ⟨reachable, underReview, rfl, ended, ?_⟩
  rw [ended]
  intro same
  rw [← same] at underReview
  cases underReview

end Session

end NearSigner
