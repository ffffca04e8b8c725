import NearSigner.Review.Approval

/-!
# Inputs during a review

What one input does to a review in progress: it is rejected, it is approved on
the page behind the last entry, or a page next to the present one is shown.
-/

namespace NearSigner

/-- By how many pages an input turns the review on. -/
def Input.turn : Input → Int
  | next => 1
  | previous => -1
  | confirm => 0
  | reject => 0

namespace Approval

theorem next_reviewing (page pages : Nat) (input : Input) :
    (input = .reject ∧ (reviewing page pages).next input = rejected) ∨
    (input = .confirm ∧ page = pages ∧ (reviewing page pages).next input = approved) ∨
    ∃ shown, (reviewing page pages).next input = reviewing shown pages ∧
      shown ≤ page + 1 ∧ (page ≤ pages → shown ≤ pages) := by
  cases input with
  | reject => exact .inl ⟨rfl, rfl⟩
  | next =>
      right; right
      exact ⟨min (page + 1) pages, rfl, Nat.min_le_left _ _, fun _ => Nat.min_le_right _ _⟩
  | previous =>
      right; right
      exact ⟨page - 1, rfl, by omega, by omega⟩
  | confirm =>
      right
      by_cases last : page = pages
      · left
        exact ⟨rfl, last, if_pos last⟩
      · right
        exact ⟨page, if_neg last, by omega, fun inside => inside⟩

/-- No entry is on show exactly on the page on which the user may approve. -/
theorem shownEntry?_eq_none_iff {page pages : Nat} (inside : page ≤ pages) :
    shownEntry? (reviewing page pages) = none ↔ page = pages := by
  change (if page < pages then some page else none) = none ↔ _
  by_cases before : page < pages
  · rw [if_pos before]
    exact iff_of_false nofun (Nat.ne_of_lt before)
  · rw [if_neg before]
    exact iff_of_true rfl (Nat.le_antisymm inside (Nat.not_lt.mp before))

/-- An input that does not end the review turns to a page between the first and the
last. -/
theorem next_of_goesOn {page pages : Nat} (inside : page ≤ pages) {input : Input}
    (unrejected : input ≠ .reject) (unconfirmed : ¬(input = .confirm ∧ page = pages)) :
    ∃ shown : Nat, (reviewing page pages).next input = reviewing shown pages ∧ shown ≤ pages ∧
      (shown : Int) = max 0 (min (page + input.turn) pages) := by
  cases input with
  | next =>
      exact ⟨min (page + 1) pages, rfl, Nat.min_le_right _ _, by simp only [Input.turn]; omega⟩
  | previous => exact ⟨page - 1, rfl, by omega, by simp only [Input.turn]; omega⟩
  | confirm =>
      have before : page ≠ pages := fun last => unconfirmed ⟨rfl, last⟩
      exact ⟨page, if_neg before, inside, by simp only [Input.turn]; omega⟩
  | reject => exact absurd rfl unrejected

theorem run_concat (approval : Approval) (inputs : List Input) (input : Input) :
    approval.run (inputs ++ [input]) = (approval.run inputs).next input :=
  run_append approval inputs [input]

/-- Nothing follows the end of a review. -/
theorem run_of_ended {approval : Approval} (ended : approval = approved ∨ approval = rejected)
    (inputs : List Input) : approval.run inputs = approval := by
  induction inputs with
  | nil => rfl
  | cons input later ih =>
      have unchanged : approval.next input = approval := by
        rcases ended with rfl | rfl
        · rfl
        · rfl
      rw [run_cons, unchanged, ih]

/-- Turning on leads to the page behind the last entry, and stays there. -/
theorem run_replicate_next {page pages : Nat} (inside : page ≤ pages) (count : Nat) :
    (reviewing page pages).run (List.replicate count .next) =
      reviewing (min (page + count) pages) pages := by
  induction count generalizing page with
  | zero => rw [List.replicate_zero, run_nil, Nat.add_zero, Nat.min_eq_left inside]
  | succ count ih =>
      have page_eq : min (min (page + 1) pages + count) pages =
          min (page + (count + 1)) pages := by
        omega
      rw [List.replicate_succ, run_cons, next, ih (Nat.min_le_right _ _), page_eq]

end Approval

end NearSigner
