import NearSigner.Proofs.Review.Length
import NearSigner.Proofs.Session.Coherence

/-!
# The length of a review

A plan that is reviewed shows a key, a hash, or a transaction that has fit into
the buffer behind its path.  So it has at least one entry, and no more entries
than the octets of such a transaction can pay for.
-/

namespace NearSigner

namespace Session

/-- A message with its path leaves so many octets for a transaction, and its plan so
many entries. -/
theorem Shows.length_le {fragments : Reassembly} {subject : Subject} {plan : Plan}
    (shows : Shows fragments subject plan) : plan.length ≤ 568 := by
  cases shows with
  | key key => exact Nat.le_add_left 1 567
  | walletId key => exact Nat.le_add_left 1 567
  | hash account hash => exact Nat.le_add_left 1 567
  | @transaction path octets account fits decoded =>
      rw [List.length_append, Path.length_bytes, maxMessage] at fits
      have octets_le : octets.length ≤ 650 := Nat.le_of_add_le_add_left fits
      have bounded := Transaction.length_plan_le octets
      split at bounded <;> omega

/-- The numbers that are declared cannot outrun the octets.  Whatever octets are
decoded, and however the decoding ends, at least 85 of them lie in front of the
actions; of those behind, every action takes at least one, and so does every entry
that shows one.  The names of methods take four octets each, and four for their
number, wherever they are read.  So the user never has more than 568 entries to
review, and never none. -/
theorem declared_numbers_cannot_outrun_octets :
    (∀ octets : Bytes,
      let decoded := Transaction.decode octets
      let actions := decoded.fields.countP Field.isAction
      (octets.length < 85 → actions = 0 ∧ decoded.plan.length ≤ 2) ∧
      (85 ≤ octets.length → actions ≤ octets.length - 85 ∧
        decoded.plan.length ≤ 3 + (octets.length - 85))) ∧
    (∀ (cursor next : Borsh.Cursor) (methods : MethodNames),
      MethodNames.reader.runAt cursor = (.ok methods, next) →
        cursor.position + (4 + 4 * methods.count.toNat) ≤ next.position ∧
          next.remaining + (4 + 4 * methods.count.toNat) ≤ cursor.remaining) ∧
    (∀ (secret : Path → Block 32) (session : Session), Reachable secret session →
      ∀ plan, session.review? = some plan → 1 ≤ plan.length ∧ plan.length ≤ 568) := by
  constructor
  · intro octets decoded actions
    have actions_le := Transaction.countP_isAction_le octets
    have plan_le := Transaction.length_plan_le octets
    constructor
    · intro short
      rw [if_pos short] at actions_le plan_le
      exact ⟨Nat.le_zero.mp actions_le, plan_le⟩
    · intro long
      rw [if_neg (Nat.not_lt.mpr long)] at actions_le plan_le
      exact ⟨actions_le, plan_le⟩
  constructor
  · intro cursor next methods read
    exact MethodNames.consumed_of_reader read
  · intro secret session reachable plan reviewed
    cases reachable.coherent with
    | reviewing shows inside =>
        cases reviewed
        exact ⟨shows.length_pos, shows.length_le⟩
    | _ => cases reviewed

/-- All the actions that can be declared are, by octets that end behind two of them
and, cut off, in front of the whole number; two names have no characters; and a key
is under review. -/
theorem declared_numbers_cannot_outrun_two_actions :
    let front := Borsh.text "" ++ List.replicate 33 0 ++ Borsh.u64 1 ++ Borsh.text "" ++
      List.replicate 32 0 ++ Borsh.u32 0xFFFFFFFF
    let octets := front ++ [0, 0]
    let names := MethodNames.ofList ["", ""]
    let asked := fresh.run (fun _ => Vector.replicate 32 7)
      [⟨false, .update (.getWalletId (Path.ofAccount 3))⟩]
    octets.length = 87 ∧ (Transaction.decode octets).fields.countP Field.isAction ≤ 2 ∧
    (Transaction.decode octets).plan.length ≤ 5 ∧
    (Transaction.decode (octets.take 84)).plan.length ≤ 2 ∧
    MethodNames.reader.runAt ⟨7, Borsh.sequence Borsh.text ["", ""]⟩ = (.ok names, ⟨19, []⟩) ∧
    7 + (4 + 4 * names.count.toNat) ≤ 19 ∧
    ∃ plan, asked.review? = some plan ∧ plan.length ≤ 568 := by
  intro front octets names asked
  obtain ⟨bounded, consumed, reviewed⟩ := declared_numbers_cannot_outrun_octets
  have length_eq : octets.length = 87 := by decide
  have cut_lt : (octets.take 84).length < 85 := by decide
  have whole := (bounded octets).2 (by rw [length_eq]; decide)
  rw [length_eq] at whole
  have read : MethodNames.reader.runAt ⟨7, Borsh.sequence Borsh.text ["", ""]⟩ =
      (.ok names, ⟨19, []⟩) := rfl
  have reachable : Reachable (fun _ => Vector.replicate 32 7) asked := ⟨_, rfl⟩
  exact ⟨length_eq, whole.1, whole.2, ((bounded _).1 cut_lt).2, read, (consumed _ _ _ read).1,
    _, rfl, (reviewed _ _ reachable _ rfl).2⟩

end Session

end NearSigner
