import NearSigner.Proofs.Frame.Commands
import NearSigner.Proofs.Session.Isolation
import NearSigner.Proofs.Session.Results

/-!
# Exclusion of the host during a review

While the user reviews a request, the host cannot reach the session.  Every
frame is answered at once: with the version of the application if it asks for
that, and as not allowed otherwise.  Neither leaves a trace, so the review goes
on as if no frame had come.
-/

namespace NearSigner

/-- The octets are a frame that asks for the version of the application.  Its
parameters and its data do not matter, as long as the data is counted. -/
def AsksForVersion (octets : Bytes) : Prop :=
  ∃ p1 p2 count data, octets = 0x80 :: 0x06 :: p1 :: p2 :: count :: data ∧
    data.length = count.toNat

namespace Command

/-- A frame asks for the version, by its class and its instruction, or for
something that is not answered at any time. -/
theorem ofFrame_cases {frame : Frame} {command : Command} (carried : ofFrame frame = .ok command) :
    (command = .getConfiguration ∧ frame.header.cla = 0x80 ∧ frame.header.ins = 0x06) ∨
      ¬command.Passive := by
  have reads := ofFrame_eq_iff.mp carried
  cases reads with
  | getConfiguration known asked => exact .inl ⟨rfl, known, asked⟩
  | _ => exact .inr nofun

/-- Octets carry a request for the version, or a command that is not answered at
any time, or none. -/
theorem ofOctets_cases {octets : Bytes} {command : Command}
    (carried : ofOctets octets = .ok command) :
    (command = .getConfiguration ∧ AsksForVersion octets) ∨ ¬command.Passive := by
  unfold ofOctets at carried
  split at carried
  · cases carried
  · rename_i frame used decoded
    unfold Frame.decode at decoded
    split at decoded
    · rename_i cla ins p1 p2 count data
      split at decoded
      · rename_i counted
        cases decoded
        rcases ofFrame_cases carried with ⟨command_eq, cla_eq, ins_eq⟩ | active
        · change cla = 0x80 at cla_eq
          change ins = 0x06 at ins_eq
          subst cla_eq ins_eq
          exact .inl ⟨command_eq, p1, p2, count, data, rfl, counted⟩
        · exact .inr active
      · cases decoded
    · cases decoded

theorem ofOctets_of_asksForVersion {octets : Bytes} (asks : AsksForVersion octets) :
    ofOctets octets = .ok .getConfiguration := by
  rcases asks with ⟨p1, p2, count, data, rfl, counted⟩
  simp only [ofOctets, Frame.decode, if_pos counted]
  exact ofFrame_of_reads (.getConfiguration rfl rfl)

end Command

namespace Session

variable {secret : Path → Block 32} {session : Session}

/-! ## Frames -/

/-- A request for the version is answered at any time if there is room for the answer,
and the session is reset if there is not. -/
theorem handleFrame_getConfiguration {octets : Bytes}
    (carried : Command.ofOctets octets = .ok .getConfiguration) (device : Device)
    (capacity : Nat) (session : Session) :
    session.handleFrame device capacity octets =
      if capacity < 3 then (.complete .internal [], fresh)
      else (.complete .success applicationVersion.bytes, session) := by
  rw [handleFrame_of_command carried]
  exact reply_answer Answer.noConfusion capacity session

theorem handleFrame_version {octets : Bytes} (asks : AsksForVersion octets) (device : Device)
    {capacity : Nat} (roomy : 3 ≤ capacity) (session : Session) :
    session.handleFrame device capacity octets =
      (.complete .success applicationVersion.bytes, session) := by
  rw [handleFrame_getConfiguration (Command.ofOctets_of_asksForVersion asks),
    if_neg (Nat.not_lt.mpr roomy)]

/-- Every other frame is refused during a review. -/
theorem handleFrame_refused {octets : Bytes} (other : ¬AsksForVersion octets) (device : Device)
    (capacity : Nat) (underReview : session.phase = .reviewing) :
    session.handleFrame device capacity octets = (.complete .commandNotAllowed [], session) := by
  rcases carried : Command.ofOctets octets with refusal | command
  · rw [handleFrame_of_refused carried, replyFailure, fail_of_reviewing underReview]
    rfl
  · rcases Command.ofOctets_cases carried with ⟨_, asks⟩ | active
    · exact absurd asks other
    · rw [handleFrame_of_command carried, update_of_reviewing device underReview active]
      rfl

theorem handleFrame_of_reviewing {octets : Bytes} (device : Device) {capacity : Nat}
    (roomy : AsksForVersion octets → 3 ≤ capacity) (underReview : session.phase = .reviewing) :
    (session.handleFrame device capacity octets).2 = session := by
  by_cases asks : AsksForVersion octets
  · rw [handleFrame_version asks device (roomy asks)]
  · rw [handleFrame_refused asks device capacity underReview]

/-! ## Dialogues -/

/-- There is room for the version in the reply to every frame. -/
def Roomy (turns : List Turn) : Prop :=
  ∀ setting capacity octets, ⟨setting, .frame capacity octets⟩ ∈ turns → 3 ≤ capacity

theorem Roomy.of_cons {turn : Turn} {later : List Turn} (roomy : Roomy (turn :: later)) :
    Roomy later :=
  fun setting capacity octets member =>
    roomy setting capacity octets (List.mem_cons_of_mem _ member)

theorem Roomy.of_prefix {front turns : List Turn} (roomy : Roomy turns)
    (isFront : front <+: turns) : Roomy front :=
  fun setting capacity octets member => roomy setting capacity octets (isFront.subset member)

theorem respond_frame {setting : Bool} {capacity : Nat} (roomy : 3 ≤ capacity) (octets : Bytes)
    (underReview : session.phase = .reviewing) :
    (session.respond secret ⟨setting, .frame capacity octets⟩).2 = session :=
  handleFrame_of_reviewing _ (fun _ => roomy) underReview

theorem respond_input_of_not_reviewing (outside : session.phase ≠ .reviewing) (setting : Bool)
    (capacity : Nat) (input : Input) :
    session.respond secret ⟨setting, .input capacity input⟩ = (none, session) :=
  handleInput_of_none (input_of_not_reviewing _ outside input) capacity

/-- No input opens a review. -/
theorem reviewing_of_converse_inputs {turns : List Turn}
    (underReview : (session.converse secret (turns.filter Turn.isInput)).phase = .reviewing) :
    session.phase = .reviewing := by
  induction turns generalizing session with
  | nil => exact underReview
  | cons turn later ih =>
      rcases turn with ⟨setting, ⟨capacity, octets⟩ | ⟨capacity, input⟩⟩
      · exact ih underReview
      · by_contra outside
        have next : (session.respond secret ⟨setting, .input capacity input⟩).2.phase =
            .reviewing := ih underReview
        rw [respond_input_of_not_reviewing outside] at next
        exact outside next

/-- A dialogue whose inputs leave the review open comes to what its inputs alone
come to. -/
theorem converse_eq_converse_inputs {turns : List Turn} (roomy : Roomy turns)
    (underReview : (session.converse secret (turns.filter Turn.isInput)).phase = .reviewing) :
    session.converse secret turns = session.converse secret (turns.filter Turn.isInput) := by
  induction turns generalizing session with
  | nil => rfl
  | cons turn later ih =>
      rcases turn with ⟨setting, ⟨capacity, octets⟩ | ⟨capacity, input⟩⟩
      · have present : session.phase = .reviewing := reviewing_of_converse_inputs underReview
        have room : 3 ≤ capacity := roomy setting capacity octets List.mem_cons_self
        rw [converse_cons, respond_frame room octets present]
        exact ih roomy.of_cons underReview
      · exact ih roomy.of_cons underReview

theorem converse_front_eq_inputs {turns front : List Turn} (roomy : Roomy turns)
    (isFront : front <+: turns)
    (underReview : (session.converse secret (turns.filter Turn.isInput)).phase = .reviewing) :
    (session.converse secret front).phase = .reviewing ∧
      session.converse secret front = session.converse secret (front.filter Turn.isInput) := by
  have frontRoomy : Roomy front := roomy.of_prefix isFront
  rcases isFront with ⟨rest, rfl⟩
  rw [List.filter_append, converse_append] at underReview
  have present := reviewing_of_converse_inputs underReview
  have front_eq := converse_eq_converse_inputs frontRoomy present
  exact ⟨front_eq ▸ present, front_eq⟩

/-- A review excludes the host.  As long as the inputs of a dialogue leave the
review open, every frame is answered at once, with the version if it asks for
it and as not allowed otherwise, and leaves the session as it was.  Every input,
the one that may end the review included, has the reply that it has without the
frames, and so the plan, how far the user has come and the final session are
those of the inputs alone. -/
theorem frames_cannot_influence_review {turns : List Turn} (roomy : Roomy turns)
    (underReview : (session.converse secret (turns.filter Turn.isInput)).phase = .reviewing)
    (setting : Bool) (capacity : Nat) (last : Input) :
    let whole := turns ++ [⟨setting, .input capacity last⟩]
    (∀ earlier setting capacity octets later,
      turns = earlier ++ ⟨setting, .frame capacity octets⟩ :: later →
        let held := session.converse secret earlier
        held.phase = .reviewing ∧
        (AsksForVersion octets →
          held.handleFrame ⟨secret, setting⟩ capacity octets =
            (.complete .success applicationVersion.bytes, held)) ∧
        (¬AsksForVersion octets →
          held.handleFrame ⟨secret, setting⟩ capacity octets =
            (.complete .commandNotAllowed [], held))) ∧
    (∀ earlier turn later, whole = earlier ++ turn :: later → turn.isInput = true →
      (session.converse secret earlier).respond secret turn =
        (session.converse secret (earlier.filter Turn.isInput)).respond secret turn) ∧
    (∀ front, front <+: whole →
      session.converse secret front = session.converse secret (front.filter Turn.isInput)) := by
  intro whole
  have fronts (front : List Turn) (isFront : front <+: whole) :
      session.converse secret front = session.converse secret (front.filter Turn.isInput) := by
    rcases List.prefix_concat_iff.mp isFront with rfl | before
    · have turns_eq := (converse_front_eq_inputs roomy List.prefix_rfl underReview).2
      rw [List.filter_append, converse_append, converse_append, turns_eq]
      rfl
    · exact (converse_front_eq_inputs roomy before underReview).2
  constructor
  · intro earlier setting capacity octets later turns_eq held
    have before : earlier <+: turns := ⟨_, turns_eq.symm⟩
    have present := (converse_front_eq_inputs roomy before underReview).1
    have room : 3 ≤ capacity := roomy setting capacity octets (by simp [turns_eq])
    exact ⟨present, fun asks => handleFrame_version asks _ room held,
      fun other => handleFrame_refused other _ capacity present⟩
  constructor
  · intro earlier turn later whole_eq _
    rw [fronts earlier ⟨_, whole_eq.symm⟩]
  · exact fronts

/-- A review of a key, with a request for the version and a frame that is no
frame in between. -/
theorem frames_cannot_influence_review_of_walletId :
    let secret : Path → Block 32 := fun _ => Vector.replicate 32 7
    let key : Block 32 := Vector.replicate 32 9
    let review := reviewing .empty (Review.start (.key key) (Plan.forWalletId key))
    let turns : List Turn :=
      [⟨true, .frame 3 [0x80, 0x06, 1, 2, 1, 9]⟩, ⟨false, .input 255 .next⟩,
        ⟨false, .frame 64 [0x80, 0x04]⟩]
    Roomy turns ∧
    (review.converse secret (turns.filter Turn.isInput)).phase = .reviewing ∧
    (review.handleFrame ⟨secret, true⟩ 3 [0x80, 0x06, 1, 2, 1, 9]).1 =
      .complete .success [1, 2, 0] ∧
    (review.converse secret turns).respond secret ⟨false, .input 32 .confirm⟩ =
      (some (.complete .success key.toBytes), fresh) := by
  intro secret key review turns
  have roomy : Roomy turns := by
    simp [Roomy, turns]
  have underReview : (review.converse secret (turns.filter Turn.isInput)).phase = .reviewing := rfl
  obtain ⟨answered, replied, _⟩ :=
    frames_cannot_influence_review roomy underReview false 32 .confirm
  have asks : AsksForVersion [0x80, 0x06, 1, 2, 1, 9] := ⟨1, 2, 1, [9], rfl, rfl⟩
  have version := (answered [] true 3 _ _ rfl).2.1 asks
  refine ⟨roomy, underReview, congrArg Prod.fst version, ?_⟩
  rw [replied turns _ [] rfl rfl]
  rfl

end Session

end NearSigner
