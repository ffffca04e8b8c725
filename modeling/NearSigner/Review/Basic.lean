import NearSigner.Path
import NearSigner.Review.Approval
import NearSigner.Review.Plan

/-!
# Reviews

A review holds what the device will do once the user approves, the plan that
the user is shown, and how far the user has come.
-/

namespace NearSigner

/-- What is to be signed. -/
inductive Payload
  /-- The transaction whose octets the session holds. -/
  | transaction
  /-- A hash, as it stands. -/
  | hash (hash : Block 32)
deriving DecidableEq, Repr

/-- What an approval releases. -/
inductive Subject
  /-- A public key, already derived. -/
  | key (key : Block 32)
  /-- A signature under the key of a path. -/
  | signature (path : Path) (payload : Payload)
deriving DecidableEq, Repr

/-- A request that waits for the user. -/
structure Review where
  subject : Subject
  plan : Plan
  approval : Approval
deriving DecidableEq, Repr

namespace Review

/-- The start of a review of every entry of a plan. -/
def start (subject : Subject) (plan : Plan) : Review where
  subject := subject
  plan := plan
  approval := Approval.start plan.length

/-- The effect of an input. -/
def next (review : Review) (input : Input) : Review :=
  { review with approval := review.approval.next input }

/-- The key of a review that releases a key. -/
def key? (review : Review) : Option (Block 32) :=
  match review.subject with
  | .key key => some key
  | .signature _ _ => none

/-- The path and the payload of a review that releases a signature. -/
def signature? (review : Review) : Option (Path × Payload) :=
  match review.subject with
  | .key _ => none
  | .signature path payload => some (path, payload)

/-- The approval of a review that may be missing. -/
def approvalOf : Option Review → Approval
  | some review => review.approval
  | none => .idle

end Review

end NearSigner
