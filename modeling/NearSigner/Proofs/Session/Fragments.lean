import NearSigner.Proofs.Session.Coherence

/-!
# Messages in fragments

How a message is cut into fragments has no effect, nor have the commands that
may come between the fragments without disturbing them.  What becomes of the
message depends on its octets alone.
-/

namespace NearSigner

namespace Occurrence

/-- What can come in front of the last fragment of a message. -/
inductive Preparatory : Occurrence → Prop
  | fragment (setting : Bool) (data : Bytes) :
      Preparatory ⟨setting, .update (.signChunk false data)⟩
  | passive (setting : Bool) {command : Command} (passive : command.Passive) :
      Preparatory ⟨setting, .update command⟩

/-- The data of the fragment that is offered. -/
def offered (occurrence : Occurrence) : Bytes :=
  match occurrence.call with
  | .update (.signChunk _ data) => data
  | _ => []

end Occurrence

/-- The data of all fragments that are offered in the course of a history. -/
def offeredData (history : List Occurrence) : Bytes :=
  history.flatMap Occurrence.offered

@[simp]
theorem offeredData_cons (occurrence : Occurrence) (later : List Occurrence) :
    offeredData (occurrence :: later) = occurrence.offered ++ offeredData later :=
  rfl

namespace Session

variable {secret : Path → Block 32} {session : Session}

theorem offered_passive (setting : Bool) {command : Command} (passive : command.Passive) :
    Occurrence.offered ⟨setting, .update command⟩ = [] := by
  cases passive with
  | nothing => rfl
  | getConfiguration => rfl

theorem gathering_after {data : Bytes} {occurrence : Occurrence}
    (gathering : Gathering data session) (preparatory : occurrence.Preparatory)
    (fits : (data ++ occurrence.offered).length ≤ maxMessage) :
    Gathering (data ++ occurrence.offered) (session.after secret occurrence) := by
  cases preparatory with
  | fragment setting fragment =>
      change (data ++ fragment).length ≤ maxMessage at fits
      have updated := update_signChunk ⟨secret, setting⟩ gathering false fragment
      rw [received_more fits] at updated
      rw [after_update, updated]
      exact .collecting (data ++ fragment)
  | passive setting passive =>
      rcases update_passive ⟨secret, setting⟩ passive session with ⟨answer, updated⟩
      rw [after_update, updated, offered_passive setting passive, List.append_nil]
      exact gathering

/-- As long as the data fits, the session holds all that was offered. -/
theorem gathering_run {data : Bytes} {steps : List Occurrence} (gathering : Gathering data session)
    (preparatory : ∀ step ∈ steps, step.Preparatory)
    (fits : (data ++ offeredData steps).length ≤ maxMessage) :
    Gathering (data ++ offeredData steps) (session.run secret steps) := by
  induction steps generalizing data session with
  | nil => simpa [offeredData] using gathering
  | cons step others ih =>
      rcases List.forall_mem_cons.mp preparatory with ⟨stepPreparatory, othersPreparatory⟩
      rw [offeredData_cons, ← List.append_assoc] at fits ⊢
      rw [run_cons]
      apply ih _ othersPreparatory fits
      apply gathering_after gathering stepPreparatory
      rw [List.length_append] at fits
      omega

/-- Data that does not fit has a first fragment with which it is too long. -/
theorem exists_first_oversized {data rest : Bytes} {steps : List Occurrence} (setting : Bool)
    (preparatory : ∀ step ∈ steps, step.Preparatory) (fits : data.length ≤ maxMessage)
    (oversized : maxMessage < (data ++ (offeredData steps ++ rest)).length) :
    ∃ earlier crossing last fragment later,
      steps ++ [⟨setting, .update (.signChunk true rest)⟩] =
        earlier ++ ⟨crossing, .update (.signChunk last fragment)⟩ :: later ∧
      (∀ step ∈ earlier, step.Preparatory) ∧
      (data ++ offeredData earlier).length ≤ maxMessage ∧
      maxMessage < (data ++ (offeredData earlier ++ fragment)).length := by
  induction steps generalizing data with
  | nil =>
      have dataFits : (data ++ offeredData []).length ≤ maxMessage := by
        simpa [offeredData] using fits
      exact ⟨[], setting, true, rest, [], rfl, by simp, dataFits, oversized⟩
  | cons step others ih =>
      rcases List.forall_mem_cons.mp preparatory with ⟨stepPreparatory, othersPreparatory⟩
      by_cases stepFits : (data ++ step.offered).length ≤ maxMessage
      · have othersOversized :
            maxMessage < (data ++ step.offered ++ (offeredData others ++ rest)).length := by
          simpa [Nat.add_assoc] using oversized
        obtain ⟨earlier, crossing, last, fragment, later, steps_eq, earlierPreparatory,
          earlierFits, crossed⟩ := ih othersPreparatory stepFits othersOversized
        refine ⟨step :: earlier, crossing, last, fragment, later, ?_, ?_, ?_, ?_⟩
        · rw [List.cons_append, steps_eq, List.cons_append]
        · exact List.forall_mem_cons.mpr ⟨stepPreparatory, earlierPreparatory⟩
        · simpa using earlierFits
        · simpa using crossed
      · -- Only a fragment can have made the difference.
        cases stepPreparatory with
        | fragment crossing fragment =>
            have dataFits : (data ++ offeredData []).length ≤ maxMessage := by
              simpa [offeredData] using fits
            exact ⟨[], crossing, false, fragment, _, rfl, by simp, dataFits,
              Nat.not_le.mp stepFits⟩
        | passive setting passive =>
            rw [offered_passive setting passive, List.append_nil] at stepFits
            exact absurd fits stepFits

/-! ## Every fragment -/

variable (device : Device)

theorem update_run_preparatory {steps : List Occurrence}
    (preparatory : ∀ step ∈ steps, step.Preparatory)
    (fits : (offeredData steps).length ≤ maxMessage) (last : Bool) (fragment : Bytes) :
    (fresh.run secret steps).update device (.signChunk last fragment) =
      received last (offeredData steps ++ fragment) :=
  update_signChunk device (gathering_run .fresh preparatory fits) last fragment

theorem update_fitting_fragment {steps earlier later : List Occurrence} {setting : Bool}
    {fragment : Bytes} (preparatory : ∀ step ∈ steps, step.Preparatory)
    (steps_eq : steps = earlier ++ ⟨setting, .update (.signChunk false fragment)⟩ :: later)
    (fits : (offeredData earlier ++ fragment).length ≤ maxMessage) :
    (fresh.run secret earlier).update device (.signChunk false fragment) =
      (.ok .done, collecting (offeredData earlier ++ fragment)) := by
  have earlierPreparatory (step : Occurrence) (member : step ∈ earlier) : step.Preparatory := by
    apply preparatory
    rw [steps_eq]
    exact List.mem_append_left _ member
  have earlierFits : (offeredData earlier).length ≤ maxMessage := Nat.le_trans (by simp) fits
  rw [update_run_preparatory device earlierPreparatory earlierFits, received_more fits]

theorem exists_refused_fragment {steps : List Occurrence} {data : Bytes}
    (preparatory : ∀ step ∈ steps, step.Preparatory)
    (oversized : maxMessage < (offeredData steps ++ data).length) :
    ∃ earlier setting last fragment later,
      steps ++ [⟨device.blindSigning, .update (.signChunk true data)⟩] =
        earlier ++ ⟨setting, .update (.signChunk last fragment)⟩ :: later ∧
      (offeredData earlier).length ≤ maxMessage ∧
      maxMessage < (offeredData earlier ++ fragment).length ∧
      (fresh.run secret earlier).update ⟨secret, setting⟩ (.signChunk last fragment) =
        (.error .oversizedMessage, fresh) := by
  rcases @exists_first_oversized [] data steps device.blindSigning preparatory (Nat.zero_le _)
    oversized with ⟨earlier, setting, last, fragment, later, steps_eq, earlierPreparatory, fits,
      crossed⟩
  have refused : (fresh.run secret earlier).update ⟨secret, setting⟩ (.signChunk last fragment) =
      (.error .oversizedMessage, fresh) := by
    rw [update_run_preparatory _ earlierPreparatory fits]
    exact received_oversized crossed last
  exact ⟨earlier, setting, last, fragment, later, steps_eq, fits, crossed, refused⟩

/-! ## The whole message -/

theorem completed_of_short {message : Bytes} (short : message.length < Path.wireLength) :
    completed message = (.error .truncatedInput, fresh) := by
  apply completed_of_error
  simp only [reviewOf, Path.parse, if_pos short, Refusal.ofFormatError]

theorem completed_append (path : Path) (octets : Bytes) :
    completed (path.bytes ++ octets) =
      if path.purpose = 0x8000002C ∧ path.coinType = 0x8000018D then
        match (Transaction.decode octets).result with
        | .ok () =>
            (.ok .pending, reviewing { stage := .complete, buffer := path.bytes ++ octets }
              (Review.start (.signature path .transaction) (Transaction.decode octets).plan))
        | .error refusal => (.error refusal, fresh)
      else
        (.error .pathRejected, fresh) := by
  rw [completed, reviewOf_append, reviewUnder]
  by_cases account : path.isAccount = true
  · rw [if_pos account, if_pos (Path.isAccount_iff.mp account)]
    cases (Transaction.decode octets).result <;> rfl
  · rw [if_neg account, if_neg (fun words => account (Path.isAccount_iff.mpr words))]

variable {device}

/-- How a message is cut into fragments does not matter, whatever harmless
commands come between them.  Every fragment is taken as long as there is room
for it; the last one has the result of the whole message at once, and leaves
the same session; and the first one for which there is no room is refused, as
the whole message is.  The result of a whole message depends on its octets
alone. -/
theorem fragmentation_is_immaterial {device : Device}
    (reachable : Reachable device.secret session) (idle : session.phase = .idle)
    {steps : List Occurrence} (preparatory : ∀ step ∈ steps, step.Preparatory) (data : Bytes) :
    let message := offeredData steps ++ data
    let whole := session.update device (.signChunk true message)
    (∀ earlier setting fragment later,
      steps = earlier ++ ⟨setting, .update (.signChunk false fragment)⟩ :: later →
        (offeredData earlier ++ fragment).length ≤ 670 →
          (session.run device.secret earlier).update ⟨device.secret, setting⟩
              (.signChunk false fragment) =
            (.ok .done, collecting (offeredData earlier ++ fragment))) ∧
    (message.length ≤ 670 →
      (session.run device.secret steps).update device (.signChunk true data) = whole) ∧
    (670 < message.length →
      whole = (.error .oversizedMessage, fresh) ∧
      ∃ earlier setting last fragment later,
        steps ++ [⟨device.blindSigning, .update (.signChunk true data)⟩] =
          earlier ++ ⟨setting, .update (.signChunk last fragment)⟩ :: later ∧
        (offeredData earlier).length ≤ 670 ∧ 670 < (offeredData earlier ++ fragment).length ∧
        (session.run device.secret earlier).update ⟨device.secret, setting⟩
            (.signChunk last fragment) =
          (.error .oversizedMessage, fresh)) ∧
    (message.length < 20 → whole = (.error .truncatedInput, fresh)) ∧
    (message.length ≤ 670 → ∀ path octets, message = path.bytes ++ octets →
      whole =
        if path.purpose = 0x8000002C ∧ path.coinType = 0x8000018D then
          match (Transaction.decode octets).result with
          | .ok () =>
              (.ok .pending, reviewing { stage := .complete, buffer := message }
                (Review.start (.signature path .transaction) (Transaction.decode octets).plan))
          | .error refusal => (.error refusal, fresh)
        else
          (.error .pathRejected, fresh)) := by
  obtain ⟨history, rfl⟩ := reachable
  rw [(coherent_run device.secret history).eq_fresh idle]
  intro message whole
  have whole_eq : whole = received true message := update_signChunk device .fresh true message
  constructor
  · intro earlier setting fragment later steps_eq fits
    exact update_fitting_fragment ⟨device.secret, setting⟩ preparatory steps_eq fits
  constructor
  · intro fits
    have stepsFit : (offeredData steps).length ≤ maxMessage :=
      Nat.le_trans (by simp [message]) fits
    rw [whole_eq]
    exact update_run_preparatory device preparatory stepsFit true data
  constructor
  · intro oversized
    constructor
    · rw [whole_eq, received_oversized oversized]
    · exact exists_refused_fragment device preparatory oversized
  constructor
  · intro short
    have fits : message.length ≤ maxMessage := Nat.le_trans (Nat.le_of_lt short) (by decide)
    rw [whole_eq, received_last fits, completed_of_short short]
  · intro fits path octets message_eq
    rw [whole_eq, received_last fits, message_eq, completed_append]

/-! ## A message in two parts -/

/-- A message that asks for a signature of a transaction. -/
def restrictedKeyMessage : Bytes :=
  (Path.ofAccount 3).bytes ++ Transaction.restrictedKey.encode

/-- The start of the message, cut inside its path and interrupted twice. -/
def interruptedStart : List Occurrence :=
  [⟨false, .update (.signChunk false (restrictedKeyMessage.take 7))⟩,
    ⟨true, .update .nothing⟩,
    ⟨false, .update (.signChunk false [])⟩,
    ⟨true, .update .getConfiguration⟩]

theorem interruptedStart_preparatory : ∀ step ∈ interruptedStart, step.Preparatory := by
  simp [interruptedStart, Occurrence.Preparatory.fragment,
    Occurrence.Preparatory.passive _ Command.Passive.nothing,
    Occurrence.Preparatory.passive _ Command.Passive.getConfiguration]

theorem offeredData_interruptedStart : offeredData interruptedStart = restrictedKeyMessage.take 7 :=
  List.append_nil _

theorem length_restrictedKeyMessage : restrictedKeyMessage.length ≤ 670 := by
  decide +kernel

theorem decode_result_restrictedKey :
    (Transaction.decode Transaction.restrictedKey.encode).result = .ok () := by
  rw [(Transaction.decode_eq_fields_iff (by decide)).mpr rfl]

theorem fragmentation_after_interruptedStart :
    let device : Device := { secret := fun _ => Vector.replicate 32 7, blindSigning := false }
    Reachable device.secret fresh ∧ fresh.phase = .idle ∧
    (∀ step ∈ interruptedStart, step.Preparatory) ∧
    (fresh.run device.secret interruptedStart).update device
        (.signChunk true (restrictedKeyMessage.drop 7)) =
      (.ok .pending, reviewing { stage := .complete, buffer := restrictedKeyMessage }
        (Review.start (.signature (Path.ofAccount 3) .transaction)
          (Transaction.decode Transaction.restrictedKey.encode).plan)) := by
  intro device
  have reachable : Reachable device.secret fresh := ⟨[], rfl⟩
  obtain ⟨_, joined, _, _, outcome⟩ := fragmentation_is_immaterial reachable rfl
    interruptedStart_preparatory (restrictedKeyMessage.drop 7)
  rw [offeredData_interruptedStart, List.take_append_drop] at joined outcome
  have fits := length_restrictedKeyMessage
  have opened := outcome fits (Path.ofAccount 3) Transaction.restrictedKey.encode rfl
  rw [if_pos (by decide), decode_result_restrictedKey] at opened
  rw [joined fits]
  exact ⟨reachable, rfl, interruptedStart_preparatory, opened⟩

end Session

end NearSigner
