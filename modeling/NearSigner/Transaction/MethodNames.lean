import NearSigner.Borsh.Reader

/-!
# Lists of method names

The names of the methods to which a key is restricted are checked when a
transaction is read, but they are kept in their encoded form and read again
when they are shown.
-/

namespace NearSigner

open Borsh

/-- A list of method names in encoded form: the number of names, and their
encodings one after the other. -/
structure MethodNames where
  count : UInt32
  encoded : Bytes
deriving DecidableEq, Repr

namespace MethodNames

/-- The encoded form of a list. -/
def ofList (names : List String) : MethodNames where
  count := UInt32.ofNat names.length
  encoded := names.flatMap Borsh.text

/-- Whether there are no names. -/
def isEmpty (methods : MethodNames) : Bool :=
  methods.count == 0

/-- Read up to `count` names, and stop before the first that cannot be read. -/
def namesFrom : Nat → Cursor → List String
  | 0, _ => []
  | count + 1, cursor =>
      match Reader.text.runAt cursor with
      | (.ok name, next) => name :: namesFrom count next
      | (.error _, _) => []

/-- The names, read from their encoded form. -/
def names (methods : MethodNames) : List String :=
  namesFrom methods.count.toNat (Cursor.start methods.encoded)

/-- Read a list of names.  Every name is checked, and the octets that they take
together are read once more from where the first of them starts. -/
def reader : Reader MethodNames := do
  let count ← Reader.u32
  let first ← get
  let _ ← Reader.repeated Reader.text count.toNat
  let last ← get
  match ((Reader.take (last.position - first.position)).runAt first).1 with
  | .ok encoded => return { count, encoded }
  | .error refusal => throw refusal

end MethodNames

end NearSigner
