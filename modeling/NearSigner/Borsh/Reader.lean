import NearSigner.Borsh.Encoding
import NearSigner.Refusal

/-!
# Reading encoded values

A cursor stands before the octets that are still to be read.  Every reader
checks that the octets it needs are there, takes them, and interprets them; a
failure leaves the cursor behind what had been taken by then, so that reading
can be observed to go on after it.
-/

namespace NearSigner.Borsh

/-- A place in a sequence of octets: how many lie before it, and those that lie
behind it. -/
structure Cursor where
  position : Nat
  rest : Bytes
deriving DecidableEq, Repr

namespace Cursor

/-- The cursor before the first octet of a sequence. -/
def start (bytes : Bytes) : Cursor where
  position := 0
  rest := bytes

/-- The number of octets behind the cursor. -/
def remaining (cursor : Cursor) : Nat :=
  cursor.rest.length

/-- Whether the cursor stands at the end. -/
def atEnd (cursor : Cursor) : Bool :=
  cursor.remaining == 0

/-- The cursor `count` octets further on. -/
def advance (cursor : Cursor) (count : Nat) : Cursor where
  position := cursor.position + count
  rest := cursor.rest.drop count

end Cursor

/-- A computation that moves a cursor and yields a value or a cause of failure.
The cursor afterwards is known in both cases. -/
abbrev Reader (α : Type) := ExceptT Refusal (StateM Cursor) α

namespace Reader

/-- Run a reader at a cursor. -/
def runAt {α : Type} (reader : Reader α) (cursor : Cursor) :
    Except Refusal α × Cursor :=
  StateT.run (ExceptT.run reader) cursor

@[simp]
theorem runAt_pure {α : Type} (value : α) (cursor : Cursor) :
    (pure value : Reader α).runAt cursor = (.ok value, cursor) :=
  rfl

@[simp]
theorem runAt_throw {α : Type} (refusal : Refusal) (cursor : Cursor) :
    (throw refusal : Reader α).runAt cursor = (.error refusal, cursor) :=
  rfl

/-- One reader after another starts where the first one stops, unless that one
fails. -/
theorem runAt_bind {α β : Type} (first : Reader α) (second : α → Reader β)
    (cursor : Cursor) :
    (first >>= second).runAt cursor =
      match first.runAt cursor with
      | (.ok value, next) => (second value).runAt next
      | (.error refusal, next) => (.error refusal, next) := by
  simp only [runAt, ExceptT.run_bind, StateT.run_bind]
  generalize StateT.run (ExceptT.run first) cursor = outcome
  rcases outcome with ⟨result, next⟩
  cases result <;> rfl

/-- The next `count` octets. -/
def take (count : Nat) : Reader Bytes := fun cursor =>
  if cursor.remaining < count then
    (.error .truncatedInput, cursor)
  else
    (.ok (cursor.rest.take count), cursor.advance count)

theorem runAt_take (count : Nat) (cursor : Cursor) :
    (take count).runAt cursor =
      if cursor.remaining < count then
        (.error .truncatedInput, cursor)
      else
        (.ok (cursor.rest.take count), cursor.advance count) :=
  rfl

/-- The next `n` octets as a block. -/
def block (n : Nat) : Reader (Block n) := do
  match Block.ofBytes? n (← take n) with
  | some octets => pure octets
  | none => throw .truncatedInput

/-- The next octet. -/
def u8 : Reader UInt8 := do
  match ← take 1 with
  | octet :: _ => pure octet
  | [] => throw .truncatedInput

/-- An integer of 32 bits. -/
def u32 : Reader UInt32 := do
  return UInt32.ofNat (Bytes.toNatLE (← take 4))

/-- An integer of 64 bits. -/
def u64 : Reader UInt64 := do
  return UInt64.ofNat (Bytes.toNatLE (← take 8))

/-- An integer of 128 bits. -/
def u128 : Reader UInt128 := do
  return BitVec.ofNat 128 (Bytes.toNatLE (← take 16))

/-- A byte string behind its length. -/
def byteString : Reader Bytes := do
  let length ← u32
  take length.toNat

/-- A text behind its length. -/
def text : Reader String := do
  match Bytes.toText? (← byteString) with
  | some text => pure text
  | none => throw .invalidEncoding

/-- The tag in front of a value that may be missing: whether it is there. -/
def optionTag : Reader Bool := do
  match ← u8 with
  | 0 => pure false
  | 1 => pure true
  | _ => throw .invalidEncoding

/-- A value that may be missing. -/
def option {α : Type} (value : Reader α) : Reader (Option α) := do
  if ← optionTag then
    return some (← value)
  else
    return none

/-- As many values as are asked for, up to the first failure. -/
def repeated {α : Type} (value : Reader α) : Nat → Reader (List α)
  | 0 => pure []
  | count + 1 => do
      let first ← value
      let others ← repeated value count
      return first :: others

end Reader

end NearSigner.Borsh
