import NearSigner.Proofs.Frame.Request
import NearSigner.Proofs.Review.Approval
import NearSigner.Proofs.Session.Steps
import NearSigner.Proofs.Transaction.Exact

/-!
# The outcomes of a call

The sessions that occur between calls, and all that a command or an input can
lead to in one of them: the result and the session afterwards, with the
condition under which they come about.
-/

namespace NearSigner

/-- Whether a cause lies in the command itself, and not in a review that is in
progress, in the user, or in the buffer for the reply. -/
def Refusal.isOfCommand : Refusal → Bool
  | busy | userRejected | unapproved | encodingFailed => false
  | _ => true

theorem Refusal.isOfCommand_of_isMalformed {refusal : Refusal}
    (malformed : refusal.isMalformed = true) : refusal.isOfCommand = true := by
  cases refusal with
  | busy | userRejected | unapproved | encodingFailed => cases malformed
  | _ => rfl

/-- The subjects whose approval takes the secret of a path. -/
inductive Subject.Under (secret : Path → Block 32) (path : Path) : Subject → Prop
  | key : Under secret path (.key (Ed25519.publicKey (secret path)))
  | signature (payload : Payload) : Under secret path (.signature path payload)

/-- The responses that take the secret of a path. -/
inductive Response.Under (secret : Path → Block 32) (path : Path) : Response → Prop
  | publicKey : Under secret path (.publicKey (Ed25519.publicKey (secret path)))
  | signature (message : Bytes) :
      Under secret path (.signature (Ed25519.sign (secret path) message))

/-- The commands that ask for the key of a path or for a signature under it,
behind the part of a message that is held. -/
inductive Command.Concerns (held : Bytes) (path : Path) : Command → Prop
  | getPublicKey (confirm : Bool) : Concerns held path (.getPublicKey path confirm)
  | getWalletId : Concerns held path (.getWalletId path)
  | signChunk {fragment octets : Bytes} (message : held ++ fragment = path.bytes ++ octets) :
      Concerns held path (.signChunk true fragment)
  | blindSign (hash : Block 32) : Concerns held path (.blindSign (path.bytes ++ hash.toBytes))

/-- A command concerns one path at most. -/
theorem Command.Concerns.unique {held : Bytes} {first second : Path} {command : Command}
    (one : command.Concerns held first) (other : command.Concerns held second) :
    first = second := by
  have same_front {front behind : Bytes} (same : first.bytes ++ front = second.bytes ++ behind) :
      first = second :=
    Path.bytes_injective (List.append_inj_left same (by simp))
  cases one with
  | getPublicKey confirm =>
      cases other with
      | getPublicKey _ => rfl
  | getWalletId =>
      cases other with
      | getWalletId => rfl
  | signChunk message =>
      cases other with
      | signChunk same => exact same_front (message.symm.trans same)
  | blindSign hash =>
      generalize data_eq : first.bytes ++ hash.toBytes = data at other
      cases other with
      | blindSign _ => exact same_front data_eq

namespace Session

/-- What a plan shows of the subject of a review, given the fragments held. -/
inductive Shows : Reassembly → Subject → Plan → Prop
  | key (key : Block 32) : Shows .empty (.key key) (Plan.forPublicKey key)
  | walletId (key : Block 32) : Shows .empty (.key key) (Plan.forWalletId key)
  | hash {path : Path} (account : path.isAccount = true) (hash : Block 32) :
      Shows .empty (.signature path (.hash hash)) (Plan.forBlindHash hash)
  | transaction {path : Path} {octets : Bytes} (account : path.isAccount = true)
      (fits : (path.bytes ++ octets).length ≤ maxMessage)
      (decoded : (Transaction.decode octets).result = .ok ()) :
      Shows { stage := .complete, buffer := path.bytes ++ octets }
        (.signature path .transaction) (Transaction.decode octets).plan

/-- The sessions whose parts fit together. -/
inductive Coherent : Session → Prop
  | fresh : Coherent fresh
  | collecting {data : Bytes} (fits : data.length ≤ maxMessage) : Coherent (collecting data)
  | reviewing {fragments : Reassembly} {subject : Subject} {plan : Plan} {page : Nat}
      (shows : Shows fragments subject plan) (inside : page ≤ plan.length) :
      Coherent (reviewing fragments
        { subject, plan, approval := .reviewing page plan.length })

/-- How a call behind some collected data opens a review. -/
inductive Opens (occurrence : Occurrence) :
    Bytes → Reassembly → Subject → Plan → Prop
  | key {plan : Plan} {key : Block 32} (shows : Shows .empty (.key key) plan) :
      Opens occurrence [] .empty (.key key) plan
  | hash {path : Path} {hash : Block 32} (account : path.isAccount = true)
      (call : occurrence.call = .update (.blindSign (path.bytes ++ hash.toBytes)))
      (allowed : occurrence.blindSigning = true) :
      Opens occurrence [] .empty (.signature path (.hash hash)) (Plan.forBlindHash hash)
  | transaction {path : Path} {data fragment octets : Bytes} (account : path.isAccount = true)
      (call : occurrence.call = .update (.signChunk true fragment))
      (message : data ++ fragment = path.bytes ++ octets)
      (fits : (path.bytes ++ octets).length ≤ maxMessage)
      (decoded : (Transaction.decode octets).result = .ok ()) :
      Opens occurrence data { stage := .complete, buffer := path.bytes ++ octets }
        (.signature path .transaction) (Transaction.decode octets).plan

theorem Opens.shows {occurrence : Occurrence} {data : Bytes} {fragments : Reassembly}
    {subject : Subject} {plan : Plan} (opens : Opens occurrence data fragments subject plan) :
    Shows fragments subject plan := by
  cases opens with
  | key shows => exact shows
  | hash account _ _ => exact .hash account _
  | transaction account _ _ fits decoded => exact .transaction account fits decoded

theorem Gathering.phase_ne_reviewing {data : Bytes} {session : Session}
    (gathering : Gathering data session) : session.phase ≠ .reviewing := by
  cases gathering with
  | fresh => exact Phase.noConfusion
  | collecting data => exact Phase.noConfusion

theorem isOfCommand_of_reviewUnder {path : Path} {octets : Bytes} {refusal : Refusal}
    (refused : reviewUnder path octets = .error refusal) : refusal.isOfCommand = true := by
  by_cases account : path.isAccount = true
  · rw [reviewUnder, if_pos account] at refused
    rcases decoded : (Transaction.decode octets).result with malformed | _
    · rw [decoded] at refused
      cases refused
      exact Refusal.isOfCommand_of_isMalformed (Transaction.isMalformed_of_decode decoded)
    · rw [decoded] at refused
      cases refused
  · rw [reviewUnder, if_neg account] at refused
    cases refused
    rfl

theorem isOfCommand_of_reviewOf {message : Bytes} {refusal : Refusal}
    (refused : reviewOf message = .error refusal) : refusal.isOfCommand = true := by
  rcases parsed : Path.parse message with reason | ⟨path, octets⟩
  · rw [reviewOf, parsed] at refused
    cases refused
    cases reason <;> rfl
  · rw [reviewOf, parsed] at refused
    exact isOfCommand_of_reviewUnder refused

/-! ## Commands -/

/-- The result of a command and the session afterwards. -/
inductive Updated (device : Device) (command : Command) :
    Session → Except Refusal Answer × Session → Prop
  | nothing {session : Session} (asked : command = .nothing) :
      Updated device command session (.ok .done, session)
  | version {session : Session} (asked : command = .getConfiguration) :
      Updated device command session (.ok (.response (.version applicationVersion)), session)
  | busy {session : Session} (active : ¬command.Passive)
      (underReview : session.phase = .reviewing) :
      Updated device command session (.error .busy, session)
  | refused {session : Session} {refusal : Refusal} (active : ¬command.Passive)
      (outside : session.phase ≠ .reviewing) (ofCommand : refusal.isOfCommand = true) :
      Updated device command session (.error refusal, fresh)
  | gathered {session : Session} {data fragment : Bytes} (gathering : Gathering data session)
      (asked : command = .signChunk false fragment)
      (fits : (data ++ fragment).length ≤ maxMessage) :
      Updated device command session (.ok .done, collecting (data ++ fragment))
  | disclosed {path : Path} (account : path.isAccount = true)
      (asked : command = .getPublicKey path false) :
      Updated device command fresh (.ok (.response (.publicKey (device.accountKey path))), fresh)
  | opened {session : Session} {data : Bytes} {fragments : Reassembly} {subject : Subject}
      {plan : Plan} {path : Path} (gathering : Gathering data session)
      (opens : Opens ⟨device.blindSigning, .update command⟩ data fragments subject plan)
      (account : path.isAccount = true) (concerns : command.Concerns data path)
      (under : subject.Under device.secret path) :
      Updated device command session (.ok .pending, reviewing fragments (Review.start subject plan))

variable {session : Session}

namespace Updated

variable (device : Device)

theorem of_passive {command : Command} (passive : command.Passive) (session : Session) :
    Updated device command session (session.update device command) := by
  cases passive with
  | nothing => exact .nothing rfl
  | getConfiguration => exact .version rfl

theorem of_signChunk {data : Bytes} (gathering : Gathering data session) (last : Bool)
    (fragment : Bytes) :
    Updated device (.signChunk last fragment) session
      (session.update device (.signChunk last fragment)) := by
  have active : ¬(Command.signChunk last fragment).Passive := nofun
  have outside := gathering.phase_ne_reviewing
  rw [update_signChunk device gathering]
  by_cases oversized : maxMessage < (data ++ fragment).length
  · rw [received_oversized oversized]
    exact .refused active outside rfl
  · have fits : (data ++ fragment).length ≤ maxMessage := Nat.not_lt.mp oversized
    cases last with
    | false =>
        rw [received_more fits]
        exact .gathered gathering rfl fits
    | true =>
        rw [received_last fits]
        rcases asked : reviewOf (data ++ fragment) with refusal | review
        · rw [completed_of_error asked]
          exact .refused active outside (isOfCommand_of_reviewOf asked)
        · rcases reviewOf_eq_ok_iff.mp asked with
            ⟨path, octets, message, account, decoded, rfl⟩
          rw [completed_of_ok asked]
          rw [message] at fits ⊢
          exact .opened gathering (.transaction account rfl message fits decoded) account
            (.signChunk message) (.signature .transaction)

theorem of_getPublicKey (path : Path) (confirm : Bool) :
    Updated device (.getPublicKey path confirm) fresh
      (fresh.update device (.getPublicKey path confirm)) := by
  rw [update_getPublicKey]
  by_cases account : path.isAccount = true
  · rw [if_pos account]
    cases confirm with
    | true => exact .opened .fresh (.key (.key _)) account (.getPublicKey true) .key
    | false => exact .disclosed account rfl
  · rw [if_neg account]
    exact .refused nofun Phase.noConfusion rfl

theorem of_getWalletId (path : Path) :
    Updated device (.getWalletId path) fresh (fresh.update device (.getWalletId path)) := by
  rw [update_getWalletId]
  by_cases account : path.isAccount = true
  · rw [if_pos account]
    exact .opened .fresh (.key (.walletId _)) account .getWalletId .key
  · rw [if_neg account]
    exact .refused nofun Phase.noConfusion rfl

theorem of_blindSign (data : Bytes) :
    Updated device (.blindSign data) fresh (fresh.update device (.blindSign data)) := by
  have refused {refusal : Refusal} (ofCommand : refusal.isOfCommand = true) :
      Updated device (.blindSign data) fresh (.error refusal, fresh) :=
    .refused nofun Phase.noConfusion ofCommand
  rw [update_blindSign]
  by_cases allowed : device.blindSigning = true
  · rw [if_pos allowed]
    rcases decoded : Request.decodeBlind data with reason | ⟨path, hash⟩
    · exact refused rfl
    · by_cases account : path.isAccount = true
      · obtain rfl := Request.decodeBlind_eq_ok_iff.mp decoded
        simp only [if_pos account]
        exact .opened .fresh (.hash account rfl allowed) account (.blindSign hash)
          (.signature (.hash hash))
      · simp only [if_neg account]
        exact refused rfl
  · rw [if_neg allowed]
    exact refused rfl

end Updated

/-- How a command can come to a session. -/
inductive Encounter (command : Command) : Session → Prop
  | passive {session : Session} (passive : command.Passive) : Encounter command session
  | fragment {session : Session} {data fragment : Bytes} {last : Bool}
      (gathering : Gathering data session) (asked : command = .signChunk last fragment) :
      Encounter command session
  | request (active : ¬command.Passive)
      (other : ∀ last fragment, command ≠ .signChunk last fragment) : Encounter command fresh
  | outOfSequence {data : Bytes} (active : ¬command.Passive)
      (other : ∀ last fragment, command ≠ .signChunk last fragment) :
      Encounter command (collecting data)
  | busy {fragments : Reassembly} {review : Review} (active : ¬command.Passive) :
      Encounter command (reviewing fragments review)

theorem Coherent.encounter (coherent : Coherent session) (command : Command) :
    Encounter command session := by
  by_cases passive : command.Passive
  · exact .passive passive
  by_cases fragment : ∃ last fragment, command = .signChunk last fragment
  · rcases fragment with ⟨last, fragment, asked⟩
    cases coherent with
    | fresh => exact .fragment .fresh asked
    | @collecting data fits => exact .fragment (.collecting data) asked
    | reviewing shows inside => exact .busy passive
  · have other (last : Bool) (data : Bytes) : command ≠ .signChunk last data :=
      fun equal => fragment ⟨last, data, equal⟩
    cases coherent with
    | fresh => exact .request passive other
    | collecting fits => exact .outOfSequence passive other
    | reviewing shows inside => exact .busy passive

/-- A command has one of seven outcomes in a coherent session. -/
theorem Coherent.updated (coherent : Coherent session) (device : Device) (command : Command) :
    Updated device command session (session.update device command) := by
  cases coherent.encounter command with
  | passive passive => exact .of_passive device passive session
  | fragment gathering asked =>
      subst asked
      exact .of_signChunk device gathering _ _
  | request active other =>
      cases command with
      | nothing => exact absurd .nothing active
      | getConfiguration => exact absurd .getConfiguration active
      | getPublicKey path confirm => exact .of_getPublicKey device path confirm
      | getWalletId path => exact .of_getWalletId device path
      | signChunk last fragment => exact absurd rfl (other last fragment)
      | blindSign data => exact .of_blindSign device data
  | outOfSequence active other =>
      rw [update_collecting device active other]
      exact .refused active Phase.noConfusion rfl
  | busy active =>
      rw [update_reviewing device active]
      exact .busy active rfl

/-! ## Inputs -/

/-- What the approval of a subject releases, given the fragments held. -/
inductive Released (device : Device) : Reassembly → Subject → Response → Prop
  | key {fragments : Reassembly} (key : Block 32) :
      Released device fragments (.key key) (.publicKey key)
  | hash {fragments : Reassembly} {path : Path} (account : path.isAccount = true)
      (hash : Block 32) :
      Released device fragments (.signature path (.hash hash))
        (.signature (Ed25519.sign (device.secret path) hash.toBytes))
  | transaction {path : Path} {octets : Bytes} (account : path.isAccount = true) :
      Released device { stage := .complete, buffer := path.bytes ++ octets }
        (.signature path .transaction)
        (.signature (Ed25519.sign (device.secret path) (Sha2.sha256 octets).toBytes))

theorem Released.under {device : Device} {fragments : Reassembly} {subject : Subject}
    {response : Response} {path : Path} (released : Released device fragments subject response)
    (under : subject.Under device.secret path) : response.Under device.secret path := by
  cases released with
  | key key =>
      cases under with
      | key => exact .publicKey
  | hash account hash =>
      cases under with
      | signature payload => exact .signature _
  | transaction account =>
      cases under with
      | signature payload => exact .signature _

/-- The outcome of an input of the user and the session afterwards. -/
inductive Taken (device : Device) (input : Input) :
    Session → Option (Except Refusal Answer) × Session → Prop
  | ignored {session : Session} (outside : session.phase ≠ .reviewing) :
      Taken device input session (none, session)
  | rejected {fragments : Reassembly} {subject : Subject} {plan : Plan} {page : Nat}
      (rejects : input = .reject) :
      Taken device input
        (reviewing fragments { subject, plan, approval := .reviewing page plan.length })
        (some (.error .userRejected), fresh)
  | approved {fragments : Reassembly} {subject : Subject} {plan : Plan} {response : Response}
      (confirms : input = .confirm) (released : Released device fragments subject response) :
      Taken device input
        (reviewing fragments { subject, plan, approval := .reviewing plan.length plan.length })
        (some (.ok (.response response)), fresh)
  | turned {fragments : Reassembly} {subject : Subject} {plan : Plan} {page shown : Nat}
      (turns : (Approval.reviewing page plan.length).next input = .reviewing shown plan.length)
      (inside : page ≤ plan.length) (adjacent : shown ≤ page + 1)
      (shownInside : shown ≤ plan.length) :
      Taken device input
        (reviewing fragments { subject, plan, approval := .reviewing page plan.length })
        (none, reviewing fragments
          { subject, plan, approval := .reviewing shown plan.length })

theorem Shows.exists_released {fragments : Reassembly} {subject : Subject} {plan : Plan}
    (shows : Shows fragments subject plan) (device : Device) (review : Review) :
    ∃ response, Released device fragments subject response ∧
      (reviewing fragments review).release device { subject, plan, approval := .approved } =
        .ok (.response response) := by
  cases shows with
  | key key => exact ⟨_, .key key, release_key device _ _ key _⟩
  | walletId key => exact ⟨_, .key key, release_key device _ _ key _⟩
  | hash account hash => exact ⟨_, .hash account hash, release_hash device _ _ account hash _⟩
  | transaction account fits decoded =>
      exact ⟨_, .transaction account, release_transaction device _ _ account _⟩

/-- An input has one of four outcomes in a coherent session. -/
theorem Coherent.taken (coherent : Coherent session) (device : Device) (input : Input) :
    Taken device input session (session.input device input) := by
  cases coherent with
  | @reviewing fragments subject plan page shows inside =>
      simp only [input_reviewing, Review.next]
      rcases Approval.next_reviewing page plan.length input with
        ⟨rejects, next_eq⟩ | ⟨confirms, rfl, next_eq⟩ | ⟨shown, next_eq, adjacent, shownInside⟩
      · rw [next_eq]
        exact .rejected rejects
      · rcases shows.exists_released device _ with ⟨response, released, release_eq⟩
        rw [next_eq, release_eq]
        exact .approved confirms released
      · rw [next_eq]
        exact .turned next_eq inside adjacent (shownInside inside)
  | fresh =>
      rw [input_of_not_reviewing device Phase.noConfusion]
      exact .ignored Phase.noConfusion
  | collecting fits =>
      rw [input_of_not_reviewing device Phase.noConfusion]
      exact .ignored Phase.noConfusion

end Session

end NearSigner
