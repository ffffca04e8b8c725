import NearSigner.Proofs.Bytes.Texts
import NearSigner.Proofs.Review.Values
import NearSigner.Proofs.Session.Persistence

/-!
# Requests for a key

A public key is returned in three ways: at once, behind a review that shows it in
base 58, and behind a review that shows it in hexadecimal.  The key is derived
once, when the request comes, and it is the same one in all three: what the user
is shown is what the host will have.
-/

namespace NearSigner

/-! ## Plans that show a key -/

theorem Plan.forPublicKey_eq (key : Block 32) :
    forPublicKey key =
      { entries := [⟨"Public Key", "ed25519:" ++ Base58.encode key.toBytes⟩] } :=
  rfl

theorem Plan.forWalletId_eq (key : Block 32) :
    forWalletId key = { entries := [⟨"Wallet ID", Hex.encode key.toBytes⟩] } :=
  rfl

namespace Session

variable {secret : Path → Block 32} {session : Session} {path : Path}

/-! ## Requests -/

theorem update_key_foreign (device : Device) (foreign : ¬path.isAccount = true) :
    (∀ confirm, fresh.update device (.getPublicKey path confirm) =
      (.error .pathRejected, fresh)) ∧
    fresh.update device (.getWalletId path) = (.error .pathRejected, fresh) := by
  constructor
  · intro confirm
    rw [update_getPublicKey, if_neg foreign]
  · rw [update_getWalletId, if_neg foreign]

theorem putsOff_key (secret : Path → Block 32) (key : Block 32) (plan : Plan) :
    PutsOff secret (.ok .pending, reviewing .empty (Review.start (.key key) plan)) plan
      (.publicKey key) :=
  putsOff_start fun _ review => release_key _ _ review key plan

/-- The key that the user is shown is the key that the host has.  On an idle session
that can be reached, the three requests for the key of a path are all refused if the
path is not that of an account.  Otherwise the request that shows nothing returns
the key and leaves the session as it was, and each of the others shows one entry,
with the key in base 58 or in hexadecimal, and returns the very same key upon
approval, whatever comes in between.  The texts shown belong to no other key. -/
theorem shown_key_is_returned_key (reachable : Reachable secret session)
    (idle : session.phase = .idle) (path : Path) :
    let key := Ed25519.publicKey (secret path)
    let base58 := "ed25519:" ++ Base58.encode key.toBytes
    let hex := Hex.encode key.toBytes
    (∀ setting,
      let device : Device := ⟨secret, setting⟩
      (¬(path.purpose = 0x8000002C ∧ path.coinType = 0x8000018D) →
        (∀ confirm, session.update device (.getPublicKey path confirm) =
          (.error .pathRejected, session)) ∧
        session.update device (.getWalletId path) = (.error .pathRejected, session)) ∧
      (path.purpose = 0x8000002C ∧ path.coinType = 0x8000018D →
        session.update device (.getPublicKey path false) =
          (.ok (.response (.publicKey key)), session) ∧
        PutsOff secret (session.update device (.getPublicKey path true))
          { entries := [⟨"Public Key", base58⟩] } (.publicKey key) ∧
        PutsOff secret (session.update device (.getWalletId path))
          { entries := [⟨"Wallet ID", hex⟩] } (.publicKey key))) ∧
    (∀ other : Block 32, "ed25519:" ++ Base58.encode other.toBytes = base58 → other = key) ∧
    hex.length = 64 ∧ (∀ char ∈ hex.toList, char ∈ "0123456789ABCDEF".toList) ∧
    ∀ other : Block 32, Hex.encode other.toBytes = hex → other = key := by
  obtain rfl := reachable.coherent.eq_fresh idle
  intro key base58 hex
  constructor
  · intro setting device
    rw [← Path.isAccount_iff]
    constructor
    · exact update_key_foreign device
    · intro account
      rw [update_getPublicKey, update_getPublicKey, update_getWalletId, if_pos account,
        if_pos account, if_pos account, Plan.forPublicKey_eq, Plan.forWalletId_eq]
      exact ⟨rfl, putsOff_key secret key _, putsOff_key secret key _⟩
  constructor
  · intro other same
    have text_eq : PublicKey.text { kind := .ed25519, data := other } =
        PublicKey.text { kind := .ed25519, data := key } := same
    exact congrArg PublicKey.data (PublicKey.text_injective text_eq)
  constructor
  · rw [Hex.length_encode, Vector.length_toList]
  constructor
  · intro char member
    exact Vector.mem_toList_iff.mpr (Hex.mem_alphabet_of_mem_encode member)
  · intro other same
    exact Vector.toList_inj.mp (Hex.encode_injective same)

/-- The host asks for the key again and sends what is no frame while the user compares
it; the key that was shown is the one returned. -/
theorem shown_key_is_returned_key_while_interrupted :
    let secret : Path → Block 32 := fun _ => Vector.replicate 32 7
    let path := Path.ofAccount 3
    let key := Ed25519.publicKey (secret path)
    let asked := (fresh.update ⟨secret, false⟩ (.getWalletId path)).2
    let turned := asked.run secret
      [⟨false, .update (.getPublicKey path false)⟩, ⟨true, .input .next⟩,
        ⟨false, .input .previous⟩, ⟨false, .input .next⟩]
    let held := (turned.handleFrame ⟨secret, false⟩ 0 [0x80, 0x04]).2
    (fresh.update ⟨secret, true⟩ (.getPublicKey { path with purpose := 44 } true)).1 =
      .error .pathRejected ∧
    (fresh.update ⟨secret, false⟩ (.getPublicKey path false)).1 =
      .ok (.response (.publicKey key)) ∧
    asked.review? = some { entries := [⟨"Wallet ID", Hex.encode key.toBytes⟩] } ∧
    held.input ⟨secret, true⟩ .confirm =
      (some (.ok (.response (.publicKey key))), fresh) := by
  intro secret path key asked turned held
  have reachable : Reachable secret fresh := ⟨[], rfl⟩
  obtain ⟨foreign, _⟩ := shown_key_is_returned_key reachable rfl { path with purpose := 44 }
  obtain ⟨known, _⟩ := shown_key_is_returned_key reachable rfl path
  have refused := ((foreign true).1 (by decide)).1 true
  obtain ⟨silent, _, walletId⟩ := (known false).2 (by decide)
  have other : ¬AsksForVersion [0x80, 0x04] := by
    rintro ⟨p1, p2, count, data, octets_eq, _⟩
    cases octets_eq
  have interlude : Interlude secret asked [.next, .previous, .next] held :=
    ((((Interlude.start.update false _).input true .next).input false .previous).input
      false .next).frame false 0 fun asks => absurd asks other
  have returned := walletId.guards.approved _ held ⟨interlude, 1, rfl⟩ true .confirm rfl
  exact ⟨congrArg Prod.fst refused, congrArg Prod.fst silent, walletId.shows, returned⟩

end Session

end NearSigner
