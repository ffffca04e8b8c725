import NearSigner.Proofs.Session.Replies

/-!
# The keys within reach

A device derives a secret for every path, but only those of the wallet's
accounts are within reach.  Two devices whose secrets are the same for these
cannot be told apart by any dialogue, whatever their other secrets are, and a
command that concerns another path is refused.
-/

namespace NearSigner

/-- The devices have one setting, and one secret for every account. -/
structure Device.SameAccounts (first second : Device) : Prop where
  blindSigning_eq : first.blindSigning = second.blindSigning
  secret_eq : ∀ path : Path, path.isAccount = true → first.secret path = second.secret path

/-- The answers that disclose nothing but what belongs to an account. -/
inductive Answer.OfAccount (secret : Path → Block 32) : Answer → Prop
  | done : OfAccount secret .done
  | pending : OfAccount secret .pending
  | version : OfAccount secret (.response (.version applicationVersion))
  | response {path : Path} {response : Response} (account : path.isAccount = true)
      (under : response.Under secret path) : OfAccount secret (.response response)

namespace Device.SameAccounts

variable {first second : Device}

theorem accountSecret_eq (same : first.SameAccounts second) (path : Path) :
    first.accountSecret path = second.accountSecret path := by
  rw [accountSecret, accountSecret, checkPath]
  by_cases account : path.isAccount = true
  · rw [same.secret_eq path account]
  · rw [if_neg account]
    rfl

theorem publicKey_eq (same : first.SameAccounts second) (path : Path) :
    first.publicKey path = second.publicKey path := by
  rw [publicKey, publicKey, same.accountSecret_eq]

theorem sign_eq (same : first.SameAccounts second) (path : Path) (approval : Approval)
    (hash : Block 32) : first.sign path approval hash = second.sign path approval hash := by
  rw [sign, sign, same.accountSecret_eq]

end Device.SameAccounts

namespace Session

/-! ## Two devices -/

/-- A review of a hash is opened or refused whatever the secrets are. -/
theorem Attempt.blindSign_eq {first second : Device}
    (same : first.blindSigning = second.blindSigning) (data : Bytes) :
    blindSign first data = blindSign second data := by
  rw [blindSign, blindSign, same]

section TwoDevices

variable {first second : Device} (same : first.SameAccounts second)
include same

theorem perform_eq (command : Command) :
    Attempt.perform first command = Attempt.perform second command := by
  have getPublicKey_eq (path : Path) (confirm : Bool) :
      Attempt.getPublicKey first path confirm = Attempt.getPublicKey second path confirm := by
    rw [Attempt.getPublicKey, Attempt.getPublicKey, same.publicKey_eq]
  have getWalletId_eq (path : Path) :
      Attempt.getWalletId first path = Attempt.getWalletId second path := by
    rw [Attempt.getWalletId, Attempt.getWalletId, same.publicKey_eq]
  simp only [Attempt.perform, getPublicKey_eq, getWalletId_eq,
    Attempt.blindSign_eq same.blindSigning_eq]

theorem update_eq (session : Session) (command : Command) :
    session.update first command = session.update second command := by
  cases command <;> simp only [update, perform_eq same]

theorem release_eq (session : Session) (review : Review) :
    session.release first review = session.release second review := by
  simp only [release, same.sign_eq]

theorem input_eq (session : Session) (input : Input) :
    session.input first input = session.input second input := by
  simp only [Session.input, release_eq same]

theorem handleFrame_eq (session : Session) (capacity : Nat) (octets : Bytes) :
    session.handleFrame first capacity octets = session.handleFrame second capacity octets := by
  simp only [handleFrame, update_eq same]

theorem handleInput_eq (session : Session) (capacity : Nat) (input : Input) :
    session.handleInput first capacity input = session.handleInput second capacity input := by
  simp only [handleInput, input_eq same]

end TwoDevices

variable {first second : Path → Block 32}

/-- No dialogue tells apart two devices that have the same secrets for every
account. -/
theorem transcript_eq_of_sameAccounts
    (same : ∀ path : Path, path.isAccount = true → first path = second path)
    (session : Session) (turns : List Turn) :
    session.transcript first turns = session.transcript second turns := by
  induction turns generalizing session with
  | nil => rfl
  | cons turn later ih =>
      have devices : (turn.device first).SameAccounts (turn.device second) := ⟨rfl, same⟩
      have respond_eq : session.respond first turn = session.respond second turn := by
        simp only [respond, handleFrame_eq devices, handleInput_eq devices]
      simp only [transcript, respond_eq, ih]

/-! ## One device -/

variable {secret : Path → Block 32} {session : Session}

/-- What waits for an approval belongs to an account. -/
def PendingOfAccount (secret : Path → Block 32) (session : Session) : Prop :=
  ∀ review, session.pending = some review →
    ∃ path : Path, path.isAccount = true ∧ review.subject.Under secret path

theorem PendingOfAccount.fresh : PendingOfAccount secret fresh := nofun

theorem PendingOfAccount.of_updated {device : Device} {command : Command}
    {outcome : Except Refusal Answer × Session}
    (updated : Updated device command session outcome)
    (own : PendingOfAccount device.secret session) :
    PendingOfAccount device.secret outcome.2 := by
  cases updated with
  | nothing asked => exact own
  | version asked => exact own
  | busy active underReview => exact own
  | refused active outside ofCommand => exact .fresh
  | gathered gathering asked fits => nofun
  | disclosed account asked => exact .fresh
  | opened gathering opens account concerns under =>
      rintro review ⟨rfl⟩
      exact ⟨_, account, under⟩

theorem PendingOfAccount.of_taken {device : Device} {input : Input}
    {outcome : Option (Except Refusal Answer) × Session}
    (taken : Taken device input session outcome)
    (own : PendingOfAccount device.secret session) :
    PendingOfAccount device.secret outcome.2 := by
  cases taken with
  | ignored outside => exact own
  | rejected rejects => exact .fresh
  | approved confirms released => exact .fresh
  | turned turns inside adjacent shownInside =>
      rcases own _ rfl with ⟨path, account, under⟩
      rintro review ⟨rfl⟩
      exact ⟨path, account, under⟩

theorem PendingOfAccount.after (own : PendingOfAccount secret session)
    (coherent : Coherent session) (occurrence : Occurrence) :
    PendingOfAccount secret (session.after secret occurrence) := by
  rcases occurrence with ⟨setting, command | input | refusal | _⟩
  · exact .of_updated (coherent.updated ⟨secret, setting⟩ command) own
  · exact .of_taken (coherent.taken ⟨secret, setting⟩ input) own
  · change PendingOfAccount secret (session.fail refusal).2
    by_cases underReview : session.phase = .reviewing
    · rw [fail_of_reviewing underReview]
      exact own
    · rw [fail_of_not_reviewing underReview]
      exact .fresh
  · exact .fresh

theorem Reachable.pendingOfAccount (reachable : Reachable secret session) :
    PendingOfAccount secret session := by
  rcases reachable with ⟨history, rfl⟩
  suffices general : ∀ session, Coherent session → PendingOfAccount secret session →
      PendingOfAccount secret (session.run secret history) from
    general Session.fresh .fresh .fresh
  induction history with
  | nil => exact fun _ _ own => own
  | cons occurrence later ih =>
      intro session coherent own
      exact ih _ ((coherent.step occurrence).coherent coherent) (own.after coherent occurrence)

theorem Updated.answer_ofAccount {device : Device} {command : Command} {answer : Answer}
    {next : Session} (updated : Updated device command session (.ok answer, next)) :
    answer.OfAccount device.secret := by
  cases updated with
  | nothing asked => exact .done
  | version asked => exact .version
  | gathered gathering asked fits => exact .done
  | disclosed account asked => exact .response account .publicKey
  | opened gathering opens account concerns under => exact .pending

theorem Taken.answer_ofAccount {device : Device} {input : Input} {answer : Answer}
    {next : Session} (taken : Taken device input session (some (.ok answer), next))
    (own : PendingOfAccount device.secret session) : answer.OfAccount device.secret := by
  cases taken with
  | approved confirms released =>
      rcases own _ rfl with ⟨path, account, under⟩
      exact .response account (released.under under)

/-- Whatever is produced belongs to an account. -/
theorem Reachable.answer_ofAccount (reachable : Reachable secret session) {turn : Turn}
    {answer : Answer} (answered : (session.produce secret turn).1 = some (.ok answer)) :
    answer.OfAccount secret := by
  rcases turn with ⟨setting, ⟨capacity, octets⟩ | ⟨capacity, input⟩⟩
  · rcases carried : Command.ofOctets octets with refusal | command
    · simp only [produce, carried] at answered
      cases answered
    · simp only [produce, carried, Turn.device, Option.some.injEq] at answered
      have updated := reachable.coherent.updated ⟨secret, setting⟩ command
      rcases outcome_eq : session.update ⟨secret, setting⟩ command with ⟨result, next⟩
      rw [outcome_eq] at updated answered
      subst answered
      exact updated.answer_ofAccount
  · simp only [produce, Turn.device] at answered
    have taken := reachable.coherent.taken ⟨secret, setting⟩ input
    rcases outcome_eq : session.input ⟨secret, setting⟩ input with ⟨result, next⟩
    rw [outcome_eq] at taken answered
    subst answered
    exact taken.answer_ofAccount reachable.pendingOfAccount

/-- A command that concerns no account is refused, and a review goes on as it
is. -/
theorem Coherent.update_foreign (coherent : Coherent session) {path : Path}
    (foreign : ¬path.isAccount = true) {command : Command}
    (concerns : command.Concerns session.fragments.buffer path) (device : Device) :
    ∃ refusal next, session.update device command = (.error refusal, next) ∧
      next.matter? = session.matter? := by
  have updated := coherent.updated device command
  generalize session.update device command = outcome at updated
  cases updated with
  | nothing asked =>
      rw [asked] at concerns
      cases concerns
  | version asked =>
      rw [asked] at concerns
      cases concerns
  | busy active underReview => exact ⟨.busy, session, rfl, rfl⟩
  | refused active outside ofCommand =>
      exact ⟨_, _, rfl, (matter?_of_not_reviewing outside).symm⟩
  | gathered gathering asked fits =>
      rw [asked] at concerns
      cases concerns
  | disclosed account asked =>
      rw [asked] at concerns
      cases concerns with
      | getPublicKey confirm => exact absurd account foreign
  | opened gathering opens account same under =>
      rw [gathering.buffer_eq] at concerns
      rw [same.unique concerns] at account
      exact absurd account foreign

theorem Coherent.respond_foreign (coherent : Coherent session) {path : Path}
    (foreign : ¬path.isAccount = true) {turn : Turn} (asked : session.Asked turn path) :
    ∃ refusal : Refusal, (session.respond secret turn).1 = some (Reply.refused refusal) ∧
      (session.respond secret turn).2.matter? = session.matter? := by
  rcases turn with ⟨setting, stimulus⟩
  rcases asked with ⟨capacity, octets, command, given, carried, concerns⟩
  obtain rfl : stimulus = .frame capacity octets := given
  rcases coherent.update_foreign foreign concerns ⟨secret, setting⟩ with
    ⟨refusal, next, refused, same⟩
  simp only [respond, Turn.device, handleFrame_of_command carried, refused]
  exact ⟨refusal, rfl, same⟩

/-- No key but those of the accounts is within reach.  Devices that have the same
secrets for the paths of accounts, and any for others, cannot be told apart by a
dialogue.  At each of its turns, what waits for an approval belongs to an
account, and so does what a reply discloses; and a frame that asks for the key
of another path, or for a signature under it, is refused. -/
theorem foreign_keys_are_unreachable {first second : Path → Block 32}
    (agree : ∀ path : Path, path.purpose = 0x8000002C → path.coinType = 0x8000018D →
      first path = second path) :
    (∀ turns, fresh.transcript first turns = fresh.transcript second turns) ∧
    ∀ turns, let session := fresh.converse first turns
      (∀ review, session.pending = some review →
        ∃ path : Path, path.purpose = 0x8000002C ∧ path.coinType = 0x8000018D ∧
          review.subject.Under first path) ∧
      (∀ turn payload, (session.respond first turn).1 = some (.complete .success payload) →
        payload = [] ∨ payload = applicationVersion.bytes ∨
          ∃ (path : Path) (response : Response), path.purpose = 0x8000002C ∧
            path.coinType = 0x8000018D ∧ response.Under first path ∧
            payload = response.payload) ∧
      ∀ path : Path, ¬(path.purpose = 0x8000002C ∧ path.coinType = 0x8000018D) →
        ∀ turn, session.Asked turn path →
          ∃ refusal : Refusal, (session.respond first turn).1 = some (Reply.refused refusal) ∧
            (session.respond first turn).2.matter? = session.matter? := by
  constructor
  · apply transcript_eq_of_sameAccounts
    intro path account
    rcases Path.isAccount_iff.mp account with ⟨purpose_eq, coinType_eq⟩
    exact agree path purpose_eq coinType_eq
  · intro turns session
    have reachable : Reachable first session := Reachable.converse ⟨[], rfl⟩ turns
    constructor
    · intro review pending
      rcases reachable.pendingOfAccount review pending with ⟨path, account, under⟩
      rcases Path.isAccount_iff.mp account with ⟨purpose_eq, coinType_eq⟩
      exact ⟨path, purpose_eq, coinType_eq, under⟩
    constructor
    · intro turn payload succeeded
      rcases exists_answer_of_success succeeded with ⟨answer, settled, answered, fits, rfl⟩
      cases reachable.answer_ofAccount answered with
      | done => exact .inl rfl
      | pending => exact absurd rfl settled
      | version => exact .inr (.inl rfl)
      | @response path response account under =>
          rcases Path.isAccount_iff.mp account with ⟨purpose_eq, coinType_eq⟩
          exact .inr (.inr ⟨path, response, purpose_eq, coinType_eq, under, rfl⟩)
    · intro path foreign turn asked
      have other : ¬path.isAccount = true := fun account =>
        foreign (Path.isAccount_iff.mp account)
      exact reachable.coherent.respond_foreign other asked

/-- The wallet identifier of a path with another coin is refused, and the
secret of the path makes no difference. -/
theorem foreign_walletId_is_refused :
    let first : Path → Block 32 := fun _ => Vector.replicate 32 7
    let second : Path → Block 32 := fun path =>
      if path.isAccount then Vector.replicate 32 7 else Vector.replicate 32 9
    let foreign : Path := { Path.ofAccount 3 with coinType := 0x8000003C }
    let turn : Turn := ⟨true, .frame 64 (Request.frame (.walletId foreign) 0).bytes⟩
    first foreign ≠ second foreign ∧
    (∀ turns, fresh.transcript first turns = fresh.transcript second turns) ∧
    ∃ refusal : Refusal, (fresh.respond first turn).1 = some (Reply.refused refusal) := by
  intro first second foreign turn
  have agree : ∀ path : Path, path.purpose = 0x8000002C → path.coinType = 0x8000018D →
      first path = second path := by
    intro path purpose_eq coinType_eq
    exact (if_pos (Path.isAccount_iff.mpr ⟨purpose_eq, coinType_eq⟩)).symm
  have asked : fresh.Asked turn foreign :=
    ⟨64, _, .getWalletId foreign, rfl, Command.ofOctets_of_asks (.walletId foreign 0),
      .getWalletId⟩
  obtain ⟨indistinguishable, reached⟩ := foreign_keys_are_unreachable agree
  obtain ⟨_, _, refused⟩ := reached []
  obtain ⟨refusal, reply_eq, _⟩ := refused foreign (by decide) turn asked
  exact ⟨by decide, indistinguishable, refusal, reply_eq⟩

end Session

end NearSigner
