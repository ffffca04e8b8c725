import NearSigner.Bytes.Basic
import NearSigner.Path
import NearSigner.Refusal

/-!
# Reassembly of messages

A message that is longer than the data of one frame arrives in fragments.  They
are collected in a buffer of fixed capacity.  Every failure empties the buffer,
so that no fragment of one message can become part of another.
-/

namespace NearSigner

/-- The greatest length of a transaction. -/
def maxTransaction : Nat := 650

/-- The greatest length of a message: a path and a transaction. -/
def maxMessage : Nat := Path.wireLength + maxTransaction

/-- How much of a message has arrived. -/
inductive Stage
  | empty
  | accumulating
  | complete
deriving DecidableEq, Repr

/-- The buffer in which fragments are collected. -/
structure Reassembly where
  stage : Stage
  buffer : Bytes
deriving DecidableEq, Repr

namespace Reassembly

/-- The empty buffer. -/
def empty : Reassembly where
  stage := .empty
  buffer := []

/-- Whether more fragments are expected. -/
def isAccumulating (reassembly : Reassembly) : Bool :=
  reassembly.stage == .accumulating

/-- The message, once it is complete. -/
def message? (reassembly : Reassembly) : Option Bytes :=
  match reassembly.stage with
  | .complete => some reassembly.buffer
  | _ => none

/-- Append a fragment to the buffer, if there is room for it. -/
def append (reassembly : Reassembly) (last : Bool) (data : Bytes) :
    Except Refusal (Option Bytes) × Reassembly :=
  let buffer := reassembly.buffer ++ data
  if maxMessage < buffer.length then
    (.error .oversizedMessage, empty)
  else if last then
    (.ok (some buffer), { stage := .complete, buffer })
  else
    (.ok none, { stage := .accumulating, buffer })

/-- Take a fragment.  A first fragment may come whenever no message is under
way, and another one only then.  The result is the message, when this fragment
completes it. -/
def push (reassembly : Reassembly) (first last : Bool) (data : Bytes) :
    Except Refusal (Option Bytes) × Reassembly :=
  match first, reassembly.stage with
  | true, .accumulating => (.error .outOfSequence, empty)
  | true, _ => empty.append last data
  | false, .accumulating => reassembly.append last data
  | false, _ => (.error .outOfSequence, empty)

end Reassembly

end NearSigner
