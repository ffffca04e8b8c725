import NearSigner.Frame.Response

/-!
# Answers

What the session produces for a command or for an input of the user.
-/

namespace NearSigner

/-- The result of a command that was not refused. -/
inductive Answer
  /-- The command was carried out and there is nothing to return. -/
  | done
  /-- The user has to approve first. -/
  | pending
  /-- A response for the host. -/
  | response (value : Response)
deriving DecidableEq, Repr

namespace Answer

/-- The payload that an answer has for the host. -/
def payload : Answer → Bytes
  | done => []
  | pending => []
  | response value => value.payload

/-- The payload of an answer, when a buffer of the given capacity can hold
it. -/
def encode (answer : Answer) (capacity : Nat) : Except FormatError Bytes :=
  if capacity < answer.payload.length then
    .error .invalidLength
  else
    .ok answer.payload

end Answer

end NearSigner
