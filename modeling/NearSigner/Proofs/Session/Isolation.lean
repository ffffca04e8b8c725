import NearSigner.Proofs.Session.Dialogue
import NearSigner.Proofs.Session.Fragments

/-!
# Isolation of commands

Nothing of a command survives it.  After a refusal, after the end of a review
and whenever it is idle, a session is as good as new: whatever dialogue
follows, it looks the same as on a device that has just been switched on.  The
one refusal that has no effect is that of a command during a review.
-/

namespace NearSigner

namespace Session

/-- The session is idle, and no dialogue tells it from a fresh one. -/
def AsGoodAsNew (secret : Path → Block 32) (session : Session) : Prop :=
  session.phase = .idle ∧
    ∀ turns : List Turn, session.transcript secret turns = fresh.transcript secret turns

variable {secret : Path → Block 32} {session : Session}

theorem asGoodAsNew_fresh : AsGoodAsNew secret fresh :=
  ⟨rfl, fun _ => rfl⟩

/-! ## Calls that end a command -/

/-- A refusal leaves a fresh session, or the session as it was. -/
theorem update_refused {device : Device} {command : Command} {refusal : Refusal}
    (refused : (session.update device command).1 = .error refusal) (other : refusal ≠ .busy) :
    (session.update device command).2 = fresh := by
  unfold update at refused ⊢
  split
  · simp at refused
  · simp at refused
  · rename_i underReview
    simp only [underReview, Except.error.injEq] at refused
    exact absurd refused.symm other
  · simp only at refused
    split
    · rename_i performed
      rw [performed] at refused
      cases refused
    · rfl

theorem input_ended {device : Device} {input : Input} {result : Except Refusal Answer}
    (ended : (session.input device input).1 = some result) :
    (session.input device input).2 = fresh := by
  rcases session with ⟨phase, fragments, pending⟩
  by_cases underReview : phase = .reviewing
  · subst underReview
    cases pending with
    | none => rfl
    | some review =>
        change ((reviewing fragments review).input device input).1 = some result at ended
        change ((reviewing fragments review).input device input).2 = fresh
        rw [input_reviewing] at ended ⊢
        split at ended
        · rfl
        · rfl
        · cases ended
  · rw [input_of_not_reviewing device underReview] at ended
    cases ended

/-! ## Commands during a review -/

/-- Outside a review no command is refused for one. -/
theorem update_ne_busy (coherent : Coherent session) (outside : session.phase ≠ .reviewing)
    (device : Device) (command : Command) :
    (session.update device command).1 ≠ .error .busy := by
  have updated := coherent.updated device command
  generalize session.update device command = outcome at updated
  cases updated with
  | busy active underReview => exact absurd underReview outside
  | refused active outside ofCommand =>
      rintro refused
      cases refused
      cases ofCommand
  | _ => nofun

theorem update_eq_busy_iff (coherent : Coherent session) (device : Device) (command : Command) :
    (session.update device command).1 = .error .busy ↔
      session.phase = .reviewing ∧ ¬command.Passive := by
  constructor
  · intro refused
    constructor
    · by_contra outside
      exact update_ne_busy coherent outside device command refused
    · intro passive
      rcases update_passive device passive session with ⟨answer, updated⟩
      rw [updated] at refused
      cases refused
  · rintro ⟨underReview, active⟩
    rw [update_of_reviewing device underReview active]

/-! ## Nothing is left behind -/

/-- A session that can be reached keeps nothing of a command that has ended.
When a command is refused, an input ends a review, or a failure is reported
outside a review, the session is as good as new, and so is every idle session.
A command is refused as coming during a review exactly when there is one, unless
it is answered at any time, and a failure is reported in that way exactly then;
the session stays as it was. -/
theorem nothing_survives_a_command (reachable : Reachable secret session) :
    (∀ setting command refusal,
      (session.update ⟨secret, setting⟩ command).1 = .error refusal → refusal ≠ .busy →
        AsGoodAsNew secret (session.update ⟨secret, setting⟩ command).2) ∧
    (∀ setting input result, (session.input ⟨secret, setting⟩ input).1 = some result →
      AsGoodAsNew secret (session.input ⟨secret, setting⟩ input).2) ∧
    (session.phase ≠ .reviewing → ∀ refusal,
      (session.fail refusal).1 = refusal ∧ AsGoodAsNew secret (session.fail refusal).2) ∧
    (∀ turns, (session.converse secret turns).phase = .idle →
      AsGoodAsNew secret (session.converse secret turns)) ∧
    (∀ setting command, (session.update ⟨secret, setting⟩ command).1 = .error .busy ↔
      session.phase = .reviewing ∧ command ≠ .nothing ∧ command ≠ .getConfiguration) ∧
    (∀ setting command, (session.update ⟨secret, setting⟩ command).1 = .error .busy →
      (session.update ⟨secret, setting⟩ command).2 = session) ∧
    (session.phase = .reviewing → ∀ refusal, session.fail refusal = (.busy, session)) := by
  have coherent : Coherent session := reachable.coherent
  constructor
  · intro setting command refusal refused other
    rw [update_refused refused other]
    exact asGoodAsNew_fresh
  constructor
  · intro setting input result ended
    rw [input_ended ended]
    exact asGoodAsNew_fresh
  constructor
  · intro outside refusal
    rw [fail_of_not_reviewing outside refusal]
    exact ⟨rfl, asGoodAsNew_fresh⟩
  constructor
  · intro turns idle
    rw [(reachable.converse turns).coherent.eq_fresh idle]
    exact asGoodAsNew_fresh
  constructor
  · intro setting command
    rw [update_eq_busy_iff coherent, Command.not_passive_iff]
  constructor
  · intro setting command refused
    rcases (update_eq_busy_iff coherent _ command).mp refused with ⟨underReview, active⟩
    rw [update_of_reviewing _ underReview active]
  · exact fail_of_reviewing

/-- A message in part is gone once another command is refused, and a review once
the user rejects it. -/
theorem nothing_survives_walletId :
    let secret : Path → Block 32 := fun _ => Vector.replicate 32 7
    let request : Command := .getWalletId (Path.ofAccount 3)
    let begun := fresh.run secret [⟨false, .update (.signChunk false [1, 2, 3])⟩]
    let review := fresh.run secret [⟨false, .update request⟩]
    begun.phase = .awaitingMore ∧ review.phase = .reviewing ∧
    (begun.update ⟨secret, false⟩ request).1 = .error .outOfSequence ∧
    AsGoodAsNew secret (begun.update ⟨secret, false⟩ request).2 ∧
    AsGoodAsNew secret (begun.fail .wrongDataLength).2 ∧
    AsGoodAsNew secret (review.input ⟨secret, false⟩ .reject).2 ∧
    (review.update ⟨secret, true⟩ request).1 = .error .busy ∧
    review.fail .wrongDataLength = (.busy, review) := by
  intro secret request begun review
  have updated := update_getWalletId ⟨secret, false⟩ (Path.ofAccount 3)
  rw [if_pos (by decide)] at updated
  have review_eq := congrArg Prod.snd updated
  have underReview : review.phase = .reviewing := congrArg Session.phase review_eq
  have begun_reachable : Reachable secret begun := ⟨_, rfl⟩
  have review_reachable : Reachable secret review := ⟨_, rfl⟩
  obtain ⟨refused, _, failed, _⟩ := nothing_survives_a_command begun_reachable
  obtain ⟨_, ended, _, _, busy, _, unaffected⟩ := nothing_survives_a_command review_reachable
  have rejected : (review.input ⟨secret, false⟩ .reject).1 = some (.error .userRejected) := by
    change ((fresh.update ⟨secret, false⟩ request).2.input ⟨secret, false⟩ .reject).1 = _
    rw [review_eq]
    rfl
  have outOfSequence : (begun.update ⟨secret, false⟩ request).1 = .error .outOfSequence := rfl
  exact ⟨rfl, underReview, outOfSequence,
    refused false request .outOfSequence outOfSequence (by decide),
    (failed (by decide) .wrongDataLength).2, ended false .reject _ rejected,
    (busy true request).mpr ⟨underReview, by decide, by decide⟩, unaffected underReview _⟩

end Session

end NearSigner
