/-!
# Approval by the user

A review of `n` entries has `n` pages, one for each, and behind them a page on
which the user may approve.  That page is reached only by turning over all the
others, so an approval implies that every entry was shown.  A rejection is
possible on every page.
-/

namespace NearSigner

/-- What the user does. -/
inductive Input
  /-- Turn to the next page. -/
  | next
  /-- Turn back to the previous page. -/
  | previous
  /-- Approve, which has an effect on the last page alone. -/
  | confirm
  /-- Reject. -/
  | reject
deriving DecidableEq, Repr

namespace Input

/-- Every input. -/
def all : List Input :=
  [.next, .previous, .confirm, .reject]

/-- The name of an input. -/
def name : Input → String
  | next => "Next"
  | previous => "Previous"
  | confirm => "Confirm"
  | reject => "Reject"

/-- The input with a name. -/
def ofName? (name : String) : Option Input :=
  all.find? (·.name == name)

end Input

/-- How far the user has come with a review. -/
inductive Approval
  /-- Nothing is reviewed. -/
  | idle
  /-- A page is shown; the page with the number `pages` is the approval page. -/
  | reviewing (page pages : Nat)
  /-- The user has approved. -/
  | approved
  /-- The user has rejected. -/
  | rejected
deriving DecidableEq, Repr

namespace Approval

/-- The start of a review of so many entries. -/
def start (pages : Nat) : Approval :=
  reviewing 0 pages

/-- The effect of an input.  There is none after the end of a review. -/
def next : Approval → Input → Approval
  | reviewing _ _, .reject => rejected
  | reviewing page pages, .next => reviewing (min (page + 1) pages) pages
  | reviewing page pages, .previous => reviewing (page - 1) pages
  | reviewing page pages, .confirm =>
      if page = pages then approved else reviewing page pages
  | idle, _ => idle
  | approved, _ => approved
  | rejected, _ => rejected

/-- The number of the entry that is shown, if one is. -/
def shownEntry? : Approval → Option Nat
  | reviewing page pages => if page < pages then some page else none
  | _ => none

/-- Whether the user has approved. -/
def isApproved (approval : Approval) : Bool :=
  approval == approved

/-- The effect of a sequence of inputs. -/
def run (approval : Approval) (inputs : List Input) : Approval :=
  inputs.foldl next approval

@[simp]
theorem run_nil (approval : Approval) : approval.run [] = approval :=
  rfl

@[simp]
theorem run_cons (approval : Approval) (input : Input) (inputs : List Input) :
    approval.run (input :: inputs) = (approval.next input).run inputs :=
  rfl

theorem run_append (approval : Approval) (first second : List Input) :
    approval.run (first ++ second) = (approval.run first).run second := by
  simp [run]

end Approval

end NearSigner
