import NearSigner.Proofs.Session.Agreement
import NearSigner.Proofs.Session.Persistence

/-!
# Requests to sign a hash

The signing of a hash as it stands passes three checks, and the setting is the
first of them: as long as it is off, nothing of the request is looked at.  Once
the review of the hash is open, the setting does not matter any more.  What the
user approves then is signed under the path that came with it.
-/

namespace NearSigner

theorem Plan.forBlindHash_eq (hash : Block 32) :
    forBlindHash hash = { entries := [⟨"Base58 Hash", Base58.encode hash.toBytes⟩] } :=
  rfl

namespace Session

variable {secret : Path → Block 32} {session : Session} {device : Device} {data : Bytes}
  {path : Path}

theorem update_blindSign_disabled (secret : Path → Block 32) (data : Bytes) :
    fresh.update ⟨secret, false⟩ (.blindSign data) = (.error .blindSigningDisabled, fresh) := by
  rw [update_blindSign, if_neg Bool.false_ne_true]

theorem update_blindSign_of_length_ne (enabled : device.blindSigning = true)
    (other : data.length ≠ 52) :
    fresh.update device (.blindSign data) = (.error .invalidBlindPayloadLength, fresh) := by
  have unread : Request.decodeBlind data = .error .invalidLength := if_neg other
  rw [update_blindSign, if_pos enabled]
  simp only [unread]

theorem update_foreign_hash (enabled : device.blindSigning = true)
    (foreign : ¬path.isAccount = true) (hash : Block 32) :
    fresh.update device (.blindSign (path.bytes ++ hash.toBytes)) =
      (.error .pathRejected, fresh) := by
  have read := Request.decodeBlind_eq_ok_iff.mpr (rfl : path.bytes ++ hash.toBytes = _)
  rw [update_blindSign, if_pos enabled]
  simp only [read, if_neg foreign]

theorem update_blindSign_refused_length_iff (enabled : device.blindSigning = true) :
    (fresh.update device (.blindSign data)).1 = .error .invalidBlindPayloadLength ↔
      data.length ≠ 52 := by
  constructor
  · intro refused whole
    rcases Request.exists_eq_of_length whole with ⟨path, hash, rfl⟩
    by_cases account : path.isAccount = true
    · rw [update_hash device enabled account] at refused
      cases refused
    · rw [update_foreign_hash enabled account] at refused
      cases refused
  · intro other
    rw [update_blindSign_of_length_ne enabled other]

theorem update_blindSign_refused_path_iff (enabled : device.blindSigning = true)
    (hash : Block 32) :
    (fresh.update device (.blindSign (path.bytes ++ hash.toBytes))).1 = .error .pathRejected ↔
      ¬path.isAccount = true := by
  constructor
  · intro refused account
    rw [update_hash device enabled account] at refused
    cases refused
  · intro foreign
    rw [update_foreign_hash enabled foreign]

/-- The signing of hashes stands behind a gate.  On an idle session that can be
reached, a request to sign a hash is refused while the setting is off, with no
regard to its payload.  While it is on, the length of the payload is checked, and
then the path.  A request that passes shows the hash, and whatever the setting is
from then on, the signature of that hash under that path is released by an approval
of that review, and by nothing else. -/
theorem hash_requests_are_gated (reachable : Reachable secret session)
    (idle : session.phase = .idle) :
    (∀ data, session.update ⟨secret, false⟩ (.blindSign data) =
      (.error .blindSigningDisabled, session)) ∧
    (∀ octets data capacity, Command.ofOctets octets = .ok (.blindSign data) →
      session.handleFrame ⟨secret, false⟩ capacity octets =
        (Reply.refused .blindSigningDisabled, session)) ∧
    ∀ data,
      let requested := session.update ⟨secret, true⟩ (.blindSign data)
      let plan : Plan := { entries := [⟨"Base58 Hash", Base58.encode (data.drop 20)⟩] }
      (requested.1 = .error .invalidBlindPayloadLength ↔ data.length ≠ 52) ∧
      (∀ refusal, requested.1 = .error refusal → requested.2 = session) ∧
      (data.length = 52 → ∃ (path : Path) (hash : Block 32),
        data.take 20 = path.bytes ∧ data.drop 20 = hash.toBytes ∧
        (requested.1 = .error .pathRejected ↔
          ¬(path.purpose = 0x8000002C ∧ path.coinType = 0x8000018D)) ∧
        (path.purpose = 0x8000002C ∧ path.coinType = 0x8000018D →
          PutsOff secret requested plan
            (.signature (Ed25519.sign (secret path) (data.drop 20))))) := by
  obtain rfl := reachable.coherent.eq_fresh idle
  constructor
  · exact update_blindSign_disabled secret
  constructor
  · intro octets data capacity carried
    rw [handleFrame_of_command carried, update_blindSign_disabled]
    rfl
  · intro data requested plan
    constructor
    · exact update_blindSign_refused_length_iff rfl
    constructor
    · intro refusal refused
      apply update_refused refused
      rintro rfl
      exact update_ne_busy .fresh Phase.noConfusion _ _ refused
    · intro whole
      rcases Request.exists_eq_of_length whole with ⟨path, hash, rfl⟩
      have front_eq : (path.bytes ++ hash.toBytes).take 20 = path.bytes :=
        List.take_left' (Path.length_bytes path)
      have rest_eq : (path.bytes ++ hash.toBytes).drop 20 = hash.toBytes :=
        List.drop_left' (Path.length_bytes path)
      refine ⟨path, hash, front_eq, rest_eq, ?_, ?_⟩
      · rw [← Path.isAccount_iff]
        exact update_blindSign_refused_path_iff rfl hash
      · rw [← Path.isAccount_iff]
        intro account
        have plan_eq : plan = Plan.forBlindHash hash := by
          rw [Plan.forBlindHash_eq, ← rest_eq]
        have requested_eq : requested = _ := update_hash ⟨secret, true⟩ rfl account hash
        rw [requested_eq, plan_eq, rest_eq]
        exact putsOff_start fun _ review => release_hash _ _ review account hash _

/-- The setting is taken back, and the host asks for one thing and another, while a
hash is under review; the approval releases its signature. -/
theorem hash_request_is_gated_while_interrupted :
    let secret : Path → Block 32 := fun _ => Vector.replicate 32 7
    let hash : Block 32 := Vector.replicate 32 9
    let data := (Path.ofAccount 3).bytes ++ hash.toBytes
    let requested := fresh.update ⟨secret, true⟩ (.blindSign data)
    let held := requested.2.run secret
      [⟨false, .update (.blindSign data)⟩, ⟨false, .input .next⟩,
        ⟨true, .update .getConfiguration⟩, ⟨false, .fail .wrongDataLength⟩]
    (fresh.update ⟨secret, false⟩ (.blindSign data)).1 = .error .blindSigningDisabled ∧
    (fresh.update ⟨secret, true⟩ (.blindSign hash.toBytes)).1 =
      .error .invalidBlindPayloadLength ∧
    requested.1 = .ok .pending ∧
    held.input ⟨secret, false⟩ .confirm =
      (some (.ok (.response (.signature
        (Ed25519.sign (secret (Path.ofAccount 3)) hash.toBytes)))), fresh) := by
  intro secret hash data requested held
  have reachable : Reachable secret fresh := ⟨[], rfl⟩
  obtain ⟨disabled, _, enabled⟩ := hash_requests_are_gated reachable rfl
  obtain ⟨_, _, whole⟩ := enabled data
  obtain ⟨path, block, path_eq, block_eq, _, opened⟩ := whole (by decide)
  have front_eq : data.take 20 = (Path.ofAccount 3).bytes := List.take_left' (Path.length_bytes _)
  have rest_eq : data.drop 20 = hash.toBytes := List.drop_left' (Path.length_bytes _)
  obtain rfl : path = Path.ofAccount 3 := Path.bytes_injective (path_eq.symm.trans front_eq)
  obtain ⟨pending, _, guards⟩ := opened (by decide)
  have interlude : Interlude secret requested.2 [.next] held :=
    (((Interlude.start.update false _).input false .next).update true _).fail _
  have signed := guards.approved _ held ⟨interlude, 1, rfl⟩ false .confirm rfl
  rw [rest_eq] at signed
  have short : hash.toBytes.length ≠ 52 := by decide
  exact ⟨congrArg Prod.fst (disabled data), (enabled hash.toBytes).1.mpr short, pending, signed⟩

end Session

end NearSigner
