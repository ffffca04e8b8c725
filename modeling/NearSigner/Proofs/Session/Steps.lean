import NearSigner.Proofs.Path
import NearSigner.Proofs.Review.Approval
import NearSigner.Proofs.Session.History

/-!
# The effect of one call

Between calls a session is fresh, collects the fragments of a message, or holds
a review.  For each of these and every call the result and the session
afterwards are given in closed form.
-/

namespace NearSigner

/-- The commands that are answered at any time and have no effect. -/
inductive Command.Passive : Command → Prop
  | nothing : Passive .nothing
  | getConfiguration : Passive .getConfiguration

theorem Command.not_passive_iff {command : Command} :
    ¬command.Passive ↔ command ≠ .nothing ∧ command ≠ .getConfiguration := by
  constructor
  · intro active
    constructor
    · rintro rfl
      exact active .nothing
    · rintro rfl
      exact active .getConfiguration
  · rintro ⟨something, other⟩ passive
    cases passive with
    | nothing => exact something rfl
    | getConfiguration => exact other rfl

/-- The key of an account. -/
def Device.accountKey (device : Device) (path : Path) : Block 32 :=
  Ed25519.publicKey (device.secret path)

theorem Device.publicKey_eq (device : Device) (path : Path) :
    device.publicKey path =
      if path.isAccount = true then .ok (device.accountKey path) else .error .pathRejected := by
  rw [publicKey, accountSecret, checkPath]
  by_cases account : path.isAccount = true
  · rw [if_pos account, if_pos account]
    rfl
  · rw [if_neg account, if_neg account]
    rfl

theorem Device.sign_approved (device : Device) {path : Path} (account : path.isAccount = true)
    (hash : Block 32) :
    device.sign path .approved hash = .ok (Ed25519.sign (device.secret path) hash.toBytes) := by
  rw [sign, accountSecret, checkPath, if_pos account]
  rfl

namespace Session.Attempt

variable {α β : Type}

/-- The result of a computation and the session that it leaves. -/
def runOn (attempt : Attempt α) (session : Session) : Except Refusal α × Session :=
  StateT.run (ExceptT.run attempt) session

theorem runOn_bind (first : Attempt α) (second : α → Attempt β) (session : Session) :
    (first >>= second).runOn session =
      match first.runOn session with
      | (.ok value, changed) => (second value).runOn changed
      | (.error refusal, changed) => (.error refusal, changed) := by
  simp only [runOn, ExceptT.run_bind, StateT.run_bind]
  rcases StateT.run (ExceptT.run first) session with ⟨result, changed⟩
  cases result <;> rfl

theorem runOn_lift (result : Except Refusal α) (session : Session) :
    (liftM result : Attempt α).runOn session = (result, session) :=
  rfl

theorem runOn_enter (phase : Phase) (session : Session) :
    (enter phase).runOn session = (.ok (), { session with phase }) :=
  rfl

end Session.Attempt

namespace Session

/-- The session that has collected some data of a message. -/
def collecting (data : Bytes) : Session where
  phase := .awaitingMore
  fragments := { stage := .accumulating, buffer := data }
  pending := none

/-- The session that holds a review. -/
def reviewing (fragments : Reassembly) (review : Review) : Session where
  phase := .reviewing
  fragments := fragments
  pending := some review

/-- The session that can take a fragment behind the data it has. -/
inductive Gathering : Bytes → Session → Prop
  | fresh : Gathering [] fresh
  | collecting (data : Bytes) : Gathering data (collecting data)

/-- The review of a transaction under a path. -/
def reviewUnder (path : Path) (octets : Bytes) : Except Refusal Review :=
  if path.isAccount = true then
    match (Transaction.decode octets).result with
    | .ok () => .ok (Review.start (.signature path .transaction) (Transaction.decode octets).plan)
    | .error refusal => .error refusal
  else
    .error .pathRejected

/-- The review that a complete message asks for. -/
def reviewOf (message : Bytes) : Except Refusal Review :=
  match Path.parse message with
  | .error reason => .error (Refusal.ofFormatError reason)
  | .ok (path, octets) => reviewUnder path octets

theorem reviewOf_append (path : Path) (octets : Bytes) :
    reviewOf (path.bytes ++ octets) = reviewUnder path octets := by
  simp only [reviewOf, Path.parse_eq_ok_iff.mpr rfl]

theorem reviewUnder_eq_ok_iff {path : Path} {octets : Bytes} {review : Review} :
    reviewUnder path octets = .ok review ↔
      path.isAccount = true ∧ (Transaction.decode octets).result = .ok () ∧
        review = Review.start (.signature path .transaction) (Transaction.decode octets).plan := by
  unfold reviewUnder
  by_cases account : path.isAccount = true
  · rw [if_pos account]
    cases (Transaction.decode octets).result with
    | ok _ => simp [account, eq_comm]
    | error refusal => simp
  · simp [account]

theorem reviewOf_eq_ok_iff {message : Bytes} {review : Review} :
    reviewOf message = .ok review ↔
      ∃ path octets, message = path.bytes ++ octets ∧ path.isAccount = true ∧
        (Transaction.decode octets).result = .ok () ∧
        review = Review.start (.signature path .transaction) (Transaction.decode octets).plan := by
  constructor
  · intro asked
    rcases parsed : Path.parse message with reason | ⟨path, octets⟩
    · rw [reviewOf, parsed] at asked
      cases asked
    · have message_eq := Path.parse_eq_ok_iff.mp parsed
      rw [message_eq, reviewOf_append] at asked
      exact ⟨path, octets, message_eq, reviewUnder_eq_ok_iff.mp asked⟩
  · rintro ⟨path, octets, rfl, asked⟩
    rw [reviewOf_append]
    exact reviewUnder_eq_ok_iff.mpr asked

/-- The result and the session once a message is complete. -/
def completed (message : Bytes) : Except Refusal Answer × Session :=
  match reviewOf message with
  | .ok review => (.ok .pending, reviewing { stage := .complete, buffer := message } review)
  | .error refusal => (.error refusal, fresh)

theorem completed_of_ok {message : Bytes} {review : Review}
    (asked : reviewOf message = .ok review) :
    completed message =
      (.ok .pending, reviewing { stage := .complete, buffer := message } review) := by
  simp only [completed, asked]

theorem completed_of_error {message : Bytes} {refusal : Refusal}
    (refused : reviewOf message = .error refusal) :
    completed message = (.error refusal, fresh) := by
  simp only [completed, refused]

/-- The result and the session once the fragments of a message amount to `data`. -/
def received (last : Bool) (data : Bytes) : Except Refusal Answer × Session :=
  if maxMessage < data.length then
    (.error .oversizedMessage, fresh)
  else if last = true then
    completed data
  else
    (.ok .done, collecting data)

theorem received_oversized {data : Bytes} (oversized : maxMessage < data.length) (last : Bool) :
    received last data = (.error .oversizedMessage, fresh) :=
  if_pos oversized

theorem received_last {data : Bytes} (fits : data.length ≤ maxMessage) :
    received true data = completed data := by
  rw [received, if_neg (Nat.not_lt.mpr fits), if_pos rfl]

theorem received_more {data : Bytes} (fits : data.length ≤ maxMessage) :
    received false data = (.ok .done, collecting data) :=
  if_neg (Nat.not_lt.mpr fits)

variable (device : Device)

/-! ## Fragments -/

theorem runOn_reviewMessage (message : Bytes) (session : Session) :
    (Attempt.reviewMessage message).runOn session =
      match reviewOf message with
      | .ok review => (.ok .pending, { session with phase := .reviewing, pending := some review })
      | .error refusal => (.error refusal, { session with phase := .parsing }) := by
  simp only [Attempt.reviewMessage, Attempt.runOn_bind, Attempt.runOn_enter, reviewOf]
  rcases Path.parse message with reason | ⟨path, octets⟩
  · rfl
  · simp only [Attempt.runOn_bind, Attempt.runOn_lift, Device.checkPath, reviewUnder]
    by_cases account : path.isAccount = true
    · simp only [account, if_true]
      cases (Transaction.decode octets).result <;> rfl
    · simp only [account]
      rfl

theorem runOn_signChunk (first last : Bool) (fragment : Bytes) (session : Session) :
    (Attempt.signChunk first last fragment).runOn session =
      match session.fragments.push first last fragment with
      | (.error refusal, fragments) => (.error refusal, { session with fragments })
      | (.ok none, fragments) => (.ok .done, { session with phase := .awaitingMore, fragments })
      | (.ok (some message), fragments) =>
          (Attempt.reviewMessage message).runOn { session with fragments } := by
  have pushed : (Attempt.pushFragment first last fragment).runOn session =
      ((session.fragments.push first last fragment).1,
        { session with fragments := (session.fragments.push first last fragment).2 }) :=
    rfl
  rw [Attempt.signChunk, Attempt.runOn_bind, pushed]
  rcases session.fragments.push first last fragment with ⟨result, fragments⟩
  rcases result with refusal | (_ | message) <;> rfl

/-- A refusal leaves nothing of the session's business behind. -/
def settled : Except Refusal Answer × Session → Except Refusal Answer × Session
  | (.ok answer, changed) => (.ok answer, changed)
  | (.error refusal, _) => (.error refusal, fresh)

theorem settled_signChunk_append {first : Bool} {session : Session} (reassembly : Reassembly)
    (last : Bool) (fragment : Bytes)
    (pushed : session.fragments.push first last fragment = reassembly.append last fragment)
    (idle : session.pending = none) :
    settled ((Attempt.signChunk first last fragment).runOn session) =
      received last (reassembly.buffer ++ fragment) := by
  rw [runOn_signChunk, pushed, Reassembly.append, received]
  by_cases oversized : maxMessage < (reassembly.buffer ++ fragment).length
  · simp only [if_pos oversized]
    rfl
  · simp only [if_neg oversized]
    cases last with
    | true =>
        simp only [if_true, runOn_reviewMessage, completed]
        cases reviewOf (reassembly.buffer ++ fragment) <;> rfl
    | false =>
        simp [settled, collecting, idle]

/-- A fragment is appended to what the session has, and the whole decides. -/
theorem update_signChunk {data : Bytes} {session : Session} (gathering : Gathering data session)
    (last : Bool) (fragment : Bytes) :
    session.update device (.signChunk last fragment) = received last (data ++ fragment) := by
  cases gathering with
  | fresh =>
      change settled ((Attempt.signChunk true last fragment).runOn fresh) = _
      exact settled_signChunk_append Reassembly.empty last fragment rfl rfl
  | collecting data =>
      change settled ((Attempt.signChunk false last fragment).runOn (collecting data)) = _
      exact settled_signChunk_append (collecting data).fragments last fragment rfl rfl

/-! ## Other commands -/

theorem update_getPublicKey (path : Path) (confirm : Bool) :
    fresh.update device (.getPublicKey path confirm) =
      if path.isAccount = true then
        if confirm = true then
          (.ok .pending, reviewing .empty
            (Review.start (.key (device.accountKey path))
              (Plan.forPublicKey (device.accountKey path))))
        else
          (.ok (.response (.publicKey (device.accountKey path))), fresh)
      else
        (.error .pathRejected, fresh) := by
  change settled ((Attempt.getPublicKey device path confirm).runOn fresh) = _
  rw [Attempt.getPublicKey, Attempt.runOn_bind, Attempt.runOn_lift, Device.publicKey_eq]
  by_cases account : path.isAccount = true
  · simp only [if_pos account]
    cases confirm <;> rfl
  · simp only [if_neg account]
    rfl

theorem update_getWalletId (path : Path) :
    fresh.update device (.getWalletId path) =
      if path.isAccount = true then
        (.ok .pending, reviewing .empty
          (Review.start (.key (device.accountKey path))
            (Plan.forWalletId (device.accountKey path))))
      else
        (.error .pathRejected, fresh) := by
  change settled ((Attempt.getWalletId device path).runOn fresh) = _
  rw [Attempt.getWalletId, Attempt.runOn_bind, Attempt.runOn_lift, Device.publicKey_eq]
  by_cases account : path.isAccount = true
  · simp only [if_pos account]
    rfl
  · simp only [if_neg account]
    rfl

theorem update_blindSign (data : Bytes) :
    fresh.update device (.blindSign data) =
      if device.blindSigning = true then
        match Request.decodeBlind data with
        | .error _ => (.error .invalidBlindPayloadLength, fresh)
        | .ok (path, hash) =>
            if path.isAccount = true then
              (.ok .pending, reviewing .empty
                (Review.start (.signature path (.hash hash)) (Plan.forBlindHash hash)))
            else
              (.error .pathRejected, fresh)
      else
        (.error .blindSigningDisabled, fresh) := by
  change settled ((Attempt.blindSign device data).runOn fresh) = _
  rw [Attempt.blindSign]
  by_cases allowed : device.blindSigning = true
  · rw [if_pos allowed, if_pos allowed]
    rcases Request.decodeBlind data with reason | ⟨path, hash⟩
    · rfl
    · simp only [Attempt.runOn_bind, Attempt.runOn_lift, Device.checkPath]
      by_cases account : path.isAccount = true
      · simp only [if_pos account]
        rfl
      · simp only [if_neg account]
        rfl
  · rw [if_neg allowed, if_neg allowed]
    rfl

theorem update_passive {command : Command} (passive : command.Passive) (session : Session) :
    ∃ answer, session.update device command = (.ok answer, session) := by
  cases passive with
  | nothing => exact ⟨.done, rfl⟩
  | getConfiguration => exact ⟨.response (.version applicationVersion), rfl⟩

theorem update_of_reviewing {command : Command} {session : Session}
    (underReview : session.phase = .reviewing) (active : ¬command.Passive) :
    session.update device command = (.error .busy, session) := by
  cases command with
  | nothing => exact absurd .nothing active
  | getConfiguration => exact absurd .getConfiguration active
  | _ => simp only [update, underReview]

theorem update_reviewing {command : Command} (active : ¬command.Passive)
    (fragments : Reassembly) (review : Review) :
    (reviewing fragments review).update device command =
      (.error .busy, reviewing fragments review) :=
  update_of_reviewing device rfl active

theorem update_collecting {command : Command} (active : ¬command.Passive)
    (other : ∀ last fragment, command ≠ .signChunk last fragment) (data : Bytes) :
    (collecting data).update device command = (.error .outOfSequence, fresh) := by
  cases command with
  | nothing => exact absurd .nothing active
  | getConfiguration => exact absurd .getConfiguration active
  | signChunk last fragment => exact absurd rfl (other last fragment)
  | _ => rfl

/-! ## Failures -/

theorem fail_of_reviewing {session : Session} (underReview : session.phase = .reviewing)
    (refusal : Refusal) : session.fail refusal = (.busy, session) := by
  simp only [fail, underReview]

theorem fail_of_not_reviewing {session : Session} (outside : session.phase ≠ .reviewing)
    (refusal : Refusal) : session.fail refusal = (refusal, fresh) := by
  rcases session with ⟨phase, fragments, pending⟩
  cases phase with
  | reviewing => exact absurd rfl outside
  | _ => rfl

/-! ## Inputs -/

theorem input_of_not_reviewing {session : Session} (other : session.phase ≠ .reviewing)
    (input : Input) : session.input device input = (none, session) := by
  rcases session with ⟨phase, fragments, pending⟩
  cases phase with
  | reviewing => exact absurd rfl other
  | _ => rfl

theorem input_reviewing (fragments : Reassembly) (review : Review) (input : Input) :
    (reviewing fragments review).input device input =
      match (review.next input).approval with
      | .approved =>
          (some ((reviewing fragments review).release device (review.next input)), fresh)
      | .rejected => (some (.error .userRejected), fresh)
      | _ => (none, reviewing fragments (review.next input)) := by
  change (match (review.next input).approval with | .approved => _ | .rejected => _ | _ => _) = _
  cases (review.next input).approval <;> rfl

theorem release_key (fragments : Reassembly) (review : Review) (key : Block 32) (plan : Plan) :
    (reviewing fragments review).release device
        { subject := .key key, plan, approval := .approved } =
      .ok (.response (.publicKey key)) :=
  rfl

theorem release_hash (fragments : Reassembly) (review : Review) {path : Path}
    (account : path.isAccount = true) (hash : Block 32) (plan : Plan) :
    (reviewing fragments review).release device
        { subject := .signature path (.hash hash), plan, approval := .approved } =
      .ok (.response (.signature (Ed25519.sign (device.secret path) hash.toBytes))) := by
  simp only [release, hashToSign?, Device.sign_approved device account]
  rfl

theorem release_transaction (octets : Bytes) (review : Review) {path : Path}
    (account : path.isAccount = true) (plan : Plan) :
    (reviewing { stage := .complete, buffer := path.bytes ++ octets } review).release device
        { subject := .signature path .transaction, plan, approval := .approved } =
      .ok (.response (.signature
        (Ed25519.sign (device.secret path) (Sha2.sha256 octets).toBytes))) := by
  have long : Path.wireLength ≤ (path.bytes ++ octets).length := by simp
  have octets_eq : (path.bytes ++ octets).drop Path.wireLength = octets :=
    List.drop_left' (Path.length_bytes path)
  simp only [release, hashToSign?, reviewing, Reassembly.message?, if_pos long, octets_eq,
    Device.transactionHash, Device.sign_approved device account]
  rfl

theorem shownEntry?_reviewing_eq_none_iff {fragments : Reassembly} {subject : Subject}
    {plan : Plan} {page : Nat} (inside : page ≤ plan.length) :
    shownEntry? (reviewing fragments
      { subject, plan, approval := .reviewing page plan.length }) = none ↔
        page = plan.length :=
  Approval.shownEntry?_eq_none_iff inside

/-- Only a confirmation behind the last entry ends a review with an answer. -/
theorem input_eq_ok {fragments : Reassembly} {subject : Subject} {plan : Plan} {page : Nat}
    {input : Input} {answer : Answer}
    (answered : ((reviewing fragments
      { subject, plan, approval := .reviewing page plan.length }).input device input).1 =
        some (.ok answer)) :
    input = .confirm ∧ page = plan.length ∧
      (reviewing fragments { subject, plan, approval := .reviewing page plan.length }).release
        device { subject, plan, approval := .approved } = .ok answer := by
  rw [input_reviewing] at answered
  simp only [Review.next] at answered
  rcases Approval.next_reviewing page plan.length input with
    ⟨_, next_eq⟩ | ⟨confirmed, last, next_eq⟩ | ⟨shown, next_eq, _, _⟩
  · rw [next_eq] at answered
    cases answered
  · rw [next_eq] at answered
    exact ⟨confirmed, last, Option.some.inj answered⟩
  · rw [next_eq] at answered
    cases answered

theorem input_confirm (fragments : Reassembly) (subject : Subject) (plan : Plan) :
    (reviewing fragments
        { subject, plan, approval := .reviewing plan.length plan.length }).input device .confirm =
      (some ((reviewing fragments
          { subject, plan, approval := .reviewing plan.length plan.length }).release device
            { subject, plan, approval := .approved }), fresh) := by
  have approved : (Approval.reviewing plan.length plan.length).next .confirm = .approved :=
    if_pos rfl
  rw [input_reviewing]
  simp only [Review.next, approved]

/-- An input that does not end the review turns to a page, and does nothing else. -/
theorem input_of_turned (fragments : Reassembly) (subject : Subject) (plan : Plan)
    {input : Input} {page shown pages : Nat}
    (turned : (Approval.reviewing page pages).next input = .reviewing shown pages) :
    (reviewing fragments { subject, plan, approval := .reviewing page pages }).input device input =
      (none, reviewing fragments { subject, plan, approval := .reviewing shown pages }) := by
  rw [input_reviewing]
  simp only [Review.next, turned]

/-- Inputs that do not end the review change how far the user has come, and nothing
else. -/
theorem run_inputs (secret : Path → Block 32) (fragments : Reassembly) (subject : Subject)
    (plan : Plan) {page shown pages : Nat} {given : List (Bool × Input)}
    (goesOn : (Approval.reviewing page pages).run (given.map Prod.snd) = .reviewing shown pages) :
    (reviewing fragments { subject, plan, approval := .reviewing page pages }).run secret
        (given.map fun (setting, input) => ⟨setting, .input input⟩) =
      reviewing fragments { subject, plan, approval := .reviewing shown pages } := by
  induction given generalizing page with
  | nil =>
      cases goesOn
      rfl
  | cons first later ih =>
      rcases first with ⟨setting, input⟩
      rw [List.map_cons, Approval.run_cons] at goesOn
      rcases Approval.next_reviewing page pages input with
        ⟨_, next_eq⟩ | ⟨_, _, next_eq⟩ | ⟨turned, next_eq, _, _⟩
      · rw [next_eq, Approval.run_of_ended (.inr rfl)] at goesOn
        cases goesOn
      · rw [next_eq, Approval.run_of_ended (.inl rfl)] at goesOn
        cases goesOn
      · have after_eq : (reviewing fragments
              { subject, plan, approval := .reviewing page pages }).after secret
                ⟨setting, .input input⟩ =
            reviewing fragments { subject, plan, approval := .reviewing turned pages } := by
          exact congrArg Prod.snd (input_of_turned ⟨secret, setting⟩ fragments subject plan next_eq)
        rw [next_eq] at goesOn
        rw [List.map_cons, run_cons, after_eq, ih goesOn]

/-- Turning over every page leads to the page on which the user may approve. -/
theorem run_nexts (secret : Path → Block 32) (settings : List Bool) (fragments : Reassembly)
    (subject : Subject) (plan : Plan) {page : Nat} (inside : page ≤ plan.length) :
    (reviewing fragments { subject, plan, approval := .reviewing page plan.length }).run secret
        (settings.map fun setting => ⟨setting, .input .next⟩) =
      reviewing fragments
        { subject, plan
          approval := .reviewing (min (page + settings.length) plan.length) plan.length } := by
  have turned := Approval.run_replicate_next inside settings.length
  have given_eq : (settings.map fun setting => (setting, Input.next)).map Prod.snd =
      List.replicate settings.length .next := by
    rw [List.map_map]
    exact List.map_const' ..
  rw [← given_eq] at turned
  have run_eq := run_inputs secret fragments subject plan turned
  rwa [List.map_map] at run_eq

theorem run_replicate_next (secret : Path → Block 32) (setting : Bool) (fragments : Reassembly)
    (subject : Subject) (plan : Plan) {page : Nat} (inside : page ≤ plan.length) (count : Nat) :
    (reviewing fragments { subject, plan, approval := .reviewing page plan.length }).run secret
        (List.replicate count ⟨setting, .input .next⟩) =
      reviewing fragments
        { subject, plan, approval := .reviewing (min (page + count) plan.length) plan.length } := by
  have turned := run_nexts secret (List.replicate count setting) fragments subject plan inside
  rwa [List.map_replicate, List.length_replicate] at turned

end Session

end NearSigner
