import Mathlib.Data.List.Induction
import NearSigner.Proofs.Review.Approval

/-!
# Approvals as walks over the pages

The inputs of the user walk over the pages of a review, one page at a time and
never beyond the first or the last.  Whether a review ends, and how, is said of
that walk alone: an approval is a confirmation on the last page that no rejection
precedes.  Since a walk skips no page, every entry has been shown by then.
-/

namespace NearSigner.Approval

/-! ## Walks -/

/-- The page on which a walk over the inputs ends.  It starts on page `0` and is
held between that page and the page `pages`. -/
def walk (pages : Nat) (inputs : List Input) : Int :=
  inputs.foldl (fun page input => max 0 (min (page + input.turn) pages)) 0

/-- Some confirmation comes on the page behind the last entry, with no rejection
before it. -/
def Approves (pages : Nat) (inputs : List Input) : Prop :=
  ∃ before later, inputs = before ++ .confirm :: later ∧ walk pages before = pages ∧
    .reject ∉ before

/-- Some rejection comes before any confirmation that approves. -/
def Rejects (pages : Nat) (inputs : List Input) : Prop :=
  ∃ before later, inputs = before ++ .reject :: later ∧ ¬Approves pages before

theorem walk_concat (pages : Nat) (inputs : List Input) (input : Input) :
    walk pages (inputs ++ [input]) = max 0 (min (walk pages inputs + input.turn) pages) := by
  rw [walk, List.foldl_append]
  rfl

/-- What stands somewhere in a longer list stands in the list before, or last. -/
theorem exists_split_concat_iff {inputs : List Input} {input sought : Input}
    {Before : List Input → Prop} :
    (∃ before later, inputs ++ [input] = before ++ sought :: later ∧ Before before) ↔
      (∃ before later, inputs = before ++ sought :: later ∧ Before before) ∨
        (input = sought ∧ Before inputs) := by
  constructor
  · rintro ⟨before, later, whole_eq, holds⟩
    rcases List.eq_nil_or_concat later with rfl | ⟨front, last, rfl⟩
    · obtain ⟨rfl, last_eq⟩ := List.append_inj' whole_eq rfl
      exact .inr ⟨List.head_eq_of_cons_eq last_eq, holds⟩
    · rw [List.concat_eq_append, ← List.cons_append, ← List.append_assoc] at whole_eq
      obtain ⟨inputs_eq, _⟩ := List.append_inj' whole_eq rfl
      exact .inl ⟨before, front, inputs_eq, holds⟩
  · rintro (⟨before, later, rfl, holds⟩ | ⟨rfl, holds⟩)
    · exact ⟨before, later ++ [input], by simp, holds⟩
    · exact ⟨inputs, [], rfl, holds⟩

theorem approves_concat_iff {pages : Nat} {inputs : List Input} {input : Input} :
    Approves pages (inputs ++ [input]) ↔
      Approves pages inputs ∨
        (input = .confirm ∧ walk pages inputs = pages ∧ .reject ∉ inputs) :=
  exists_split_concat_iff

theorem rejects_concat_iff {pages : Nat} {inputs : List Input} {input : Input} :
    Rejects pages (inputs ++ [input]) ↔
      Rejects pages inputs ∨ (input = .reject ∧ ¬Approves pages inputs) :=
  exists_split_concat_iff

theorem Rejects.mem {pages : Nat} {inputs : List Input} (rejects : Rejects pages inputs) :
    .reject ∈ inputs := by
  rcases rejects with ⟨before, later, rfl, _⟩
  simp

theorem not_approves_nil (pages : Nat) : ¬Approves pages [] := by
  rintro ⟨before, later, nil_eq, _⟩
  simp at nil_eq

/-! ## The state that a walk leads to -/

/-- What a sequence of inputs has made of a review. -/
inductive Outcome (pages : Nat) (inputs : List Input) : Approval → Prop
  | approved (approves : Approves pages inputs) (unrejected : ¬Rejects pages inputs) :
      Outcome pages inputs approved
  | rejected (rejects : Rejects pages inputs) (unapproved : ¬Approves pages inputs) :
      Outcome pages inputs rejected
  | reviewing {page : Nat} (inside : page ≤ pages) (page_eq : walk pages inputs = page)
      (unapproved : ¬Approves pages inputs) (unrejected : .reject ∉ inputs) :
      Outcome pages inputs (reviewing page pages)

theorem Outcome.next {pages : Nat} {inputs : List Input} {approval : Approval}
    (outcome : Outcome pages inputs approval) (input : Input) :
    Outcome pages (inputs ++ [input]) (approval.next input) := by
  cases outcome with
  | approved approves unrejected =>
      apply Outcome.approved
      · exact approves_concat_iff.mpr (.inl approves)
      · rw [rejects_concat_iff]
        rintro (rejects | ⟨_, unapproved⟩)
        · exact unrejected rejects
        · exact unapproved approves
  | rejected rejects unapproved =>
      apply Outcome.rejected
      · exact rejects_concat_iff.mpr (.inl rejects)
      · rw [approves_concat_iff]
        rintro (approves | ⟨_, _, unrejected⟩)
        · exact unapproved approves
        · exact unrejected rejects.mem
  | @reviewing page inside page_eq unapproved unrejected =>
      by_cases rejects : input = .reject
      · subst rejects
        apply Outcome.rejected
        · exact rejects_concat_iff.mpr (.inr ⟨rfl, unapproved⟩)
        · rw [approves_concat_iff]
          rintro (approves | ⟨confirms, _⟩)
          · exact unapproved approves
          · cases confirms
      · have stillUnrejected : .reject ∉ inputs ++ [input] := by
          simp [unrejected, Ne.symm rejects]
        by_cases confirms : input = .confirm ∧ page = pages
        · rcases confirms with ⟨rfl, rfl⟩
          rw [Approval.next, if_pos rfl]
          apply Outcome.approved
          · exact approves_concat_iff.mpr (.inr ⟨rfl, page_eq, unrejected⟩)
          · exact fun rejects => stillUnrejected rejects.mem
        · rcases next_of_goesOn inside rejects confirms with
            ⟨shown, next_eq, shownInside, shown_eq⟩
          rw [next_eq]
          apply Outcome.reviewing shownInside
          · rw [walk_concat, page_eq, shown_eq]
          · rw [approves_concat_iff]
            rintro (approves | ⟨confirmed, walk_eq, _⟩)
            · exact unapproved approves
            · exact confirms ⟨confirmed, Int.ofNat_inj.mp (page_eq.symm.trans walk_eq)⟩
          · exact stillUnrejected

/-- The walk over the inputs says what they make of a review. -/
theorem outcome_run (pages : Nat) (inputs : List Input) :
    Outcome pages inputs ((start pages).run inputs) := by
  induction inputs using List.reverseRecOn with
  | nil => exact .reviewing (Nat.zero_le _) rfl (not_approves_nil pages) List.not_mem_nil
  | append_singleton earlier input ih =>
      rw [run_concat]
      exact ih.next input

/-! ## The way to an approval -/

theorem next_eq_reviewing {approval : Approval} {input : Input} {page pages : Nat}
    (goesOn : approval.next input = reviewing page pages) :
    ∃ before, approval = reviewing before pages ∧ page ≤ before + 1 := by
  cases approval with
  | reviewing before all =>
      rcases next_reviewing before all input with
        ⟨_, next_eq⟩ | ⟨_, _, next_eq⟩ | ⟨shown, next_eq, adjacent, _⟩
      · rw [next_eq] at goesOn
        cases goesOn
      · rw [next_eq] at goesOn
        cases goesOn
      · rw [next_eq] at goesOn
        cases goesOn
        exact ⟨before, rfl, adjacent⟩
  | _ => cases goesOn

theorem next_eq_approved {approval : Approval} {input : Input}
    (approves : approval.next input = approved) :
    approval = approved ∨ ∃ pages, approval = reviewing pages pages ∧ input = .confirm := by
  cases approval with
  | reviewing page pages =>
      rcases next_reviewing page pages input with
        ⟨_, next_eq⟩ | ⟨confirms, rfl, _⟩ | ⟨shown, next_eq, _, _⟩
      · rw [next_eq] at approves
        cases approves
      · exact .inr ⟨page, rfl, confirms⟩
      · rw [next_eq] at approves
        cases approves
  | approved => exact .inl rfl
  | _ => cases approves

/-- Every entry up to the present page has been on show. -/
theorem exists_shown {pages page : Nat} {inputs : List Input}
    (reached : (start pages).run inputs = reviewing page pages) {index : Nat}
    (behind : index ≤ page) (below : index < pages) :
    ∃ front, front <+: inputs ∧ shownEntry? ((start pages).run front) = some index := by
  induction inputs using List.reverseRecOn generalizing page with
  | nil =>
      obtain rfl : 0 = page := (Approval.reviewing.inj reached).1
      obtain rfl := Nat.le_zero.mp behind
      exact ⟨[], List.prefix_rfl, if_pos below⟩
  | append_singleton earlier input ih =>
      have whole := reached
      rw [run_concat] at reached
      rcases next_eq_reviewing reached with ⟨before, before_eq, adjacent⟩
      by_cases earlierShown : index ≤ before
      · rcases ih before_eq earlierShown with ⟨front, isPrefix, shown⟩
        exact ⟨front, isPrefix.trans (List.prefix_append _ _), shown⟩
      · obtain rfl : index = page := by omega
        exact ⟨earlier ++ [input], List.prefix_rfl, by rw [whole]; exact if_pos below⟩

/-- An approval has come about by a confirmation on the last page. -/
theorem exists_confirmation {pages : Nat} {inputs : List Input}
    (reached : (start pages).run inputs = approved) :
    ∃ before later, inputs = before ++ .confirm :: later ∧
      (start pages).run before = reviewing pages pages := by
  induction inputs using List.reverseRecOn with
  | nil => cases reached
  | append_singleton earlier input ih =>
      rw [run_concat] at reached
      rcases next_eq_approved reached with already | ⟨last, last_eq, rfl⟩
      · rcases ih already with ⟨before, later, rfl, before_eq⟩
        exact ⟨before, later ++ [input], by simp, before_eq⟩
      · have outcome := outcome_run pages earlier
        rw [last_eq] at outcome
        cases outcome with
        | reviewing inside page_eq unapproved unrejected => exact ⟨earlier, [], rfl, last_eq⟩

theorem run_replicate_next_confirm {page pages count : Nat} (inside : page ≤ pages)
    (enough : pages - page ≤ count) :
    (reviewing page pages).run (List.replicate count .next ++ [.confirm]) = approved := by
  have last : min (page + count) pages = pages := by omega
  rw [run_append, run_replicate_next inside, last]
  exact if_pos rfl

/-- What the user's inputs make of a review of so many entries.  They approve it
exactly when a confirmation comes on the page behind the last entry and no
rejection before it, reject it exactly when a rejection comes before any such
confirmation, and otherwise show the page to which they walk.  When they approve,
a confirmation did so while no entry was on show, and each entry had been on show
before.  A confirmation on another page has no effect, nothing has an effect
after the end, and turning on far enough leads to an approval from every page. -/
theorem approvals_are_exactly_full_walks (pages : Nat) (inputs : List Input) :
    ((start pages).run inputs = approved ↔ Approves pages inputs) ∧
    ((start pages).run inputs = rejected ↔ Rejects pages inputs) ∧
    (¬Approves pages inputs → ¬Rejects pages inputs →
      ∃ page : Nat, (page : Int) = walk pages inputs ∧ page ≤ pages ∧
        (start pages).run inputs = reviewing page pages) ∧
    ((start pages).run inputs = approved →
      ∃ before later, inputs = before ++ .confirm :: later ∧
        (start pages).run before ≠ approved ∧
        (start pages).run (before ++ [.confirm]) = approved ∧
        shownEntry? ((start pages).run before) = none ∧
        ∀ index < pages, ∃ front, front <+: before ∧
          shownEntry? ((start pages).run front) = some index) ∧
    (∀ page, (start pages).run inputs = reviewing page pages → page ≠ pages →
      (start pages).run (inputs ++ [.confirm]) = (start pages).run inputs) ∧
    ((start pages).run inputs = approved ∨ (start pages).run inputs = rejected →
      ∀ later, (start pages).run (inputs ++ later) = (start pages).run inputs) ∧
    (∀ page ≤ pages, ∀ count ≥ pages - page,
      (reviewing page pages).run (List.replicate count .next ++ [.confirm]) = approved) := by
  have outcome := outcome_run pages inputs
  constructor
  · generalize (start pages).run inputs = approval at outcome
    cases outcome with
    | approved approves unrejected => exact iff_of_true rfl approves
    | rejected rejects unapproved => exact iff_of_false nofun unapproved
    | reviewing inside page_eq unapproved unrejected => exact iff_of_false nofun unapproved
  constructor
  · generalize (start pages).run inputs = approval at outcome
    cases outcome with
    | approved approves unrejected => exact iff_of_false nofun unrejected
    | rejected rejects unapproved => exact iff_of_true rfl rejects
    | reviewing inside page_eq unapproved unrejected =>
        exact iff_of_false nofun fun rejects => unrejected rejects.mem
  constructor
  · intro unapproved unrejected
    generalize (start pages).run inputs = approval at outcome
    cases outcome with
    | approved approves _ => exact absurd approves unapproved
    | rejected rejects _ => exact absurd rejects unrejected
    | @reviewing page inside page_eq _ _ => exact ⟨page, page_eq.symm, inside, rfl⟩
  constructor
  · intro approves
    rcases exists_confirmation approves with ⟨before, later, inputs_eq, before_eq⟩
    refine ⟨before, later, inputs_eq, ?_, ?_, ?_, ?_⟩
    · rw [before_eq]
      nofun
    · rw [run_append, before_eq]
      exact if_pos rfl
    · rw [before_eq]
      exact if_neg (Nat.lt_irrefl _)
    · intro index below
      exact exists_shown before_eq (Nat.le_of_lt below) below
  constructor
  · intro page shown other
    rw [run_append, shown]
    exact if_neg other
  constructor
  · intro ended later
    rw [run_append, run_of_ended ended]
  · intro page inside count enough
    exact run_replicate_next_confirm inside enough

end NearSigner.Approval
