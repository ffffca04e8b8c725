import NearSigner.Frame.Request
import NearSigner.Refusal

/-!
# Commands

A command is what a frame asks the session to do.  The second parameter of a
frame has no meaning, and neither does the first where the command has no
variants.  The data of a hash signing request is not looked at here: whether
such requests are allowed at all is decided first.
-/

namespace NearSigner

/-- A command of the host. -/
inductive Command
  /-- Nothing is asked for. -/
  | nothing
  /-- Return the version of the application. -/
  | getConfiguration
  /-- Return a public key, and show it before if `confirm` is set. -/
  | getPublicKey (path : Path) (confirm : Bool)
  /-- Show and return a wallet identifier. -/
  | getWalletId (path : Path)
  /-- Take a fragment of a path followed by a transaction. -/
  | signChunk (last : Bool) (data : Bytes)
  /-- Sign a hash as it stands. -/
  | blindSign (data : Bytes)
deriving DecidableEq, Repr

namespace Command

/-- The path that the data of a frame consists of. -/
def pathOf (data : Bytes) : Except Refusal Path :=
  match Request.decodePath data with
  | .ok (path, used) =>
      if used = data.length then .ok path else .error .trailingData
  | .error reason => .error (Refusal.ofFormatError reason)

/-- The command that a frame carries. -/
def ofFrame (frame : Frame) : Except Refusal Command :=
  if frame.header.cla ≠ Frame.deviceClass then
    .error .unsupportedClass
  else
    match Instruction.ofCode? frame.header.ins with
    | none => .error .unsupportedInstruction
    | some .getConfiguration => .ok .getConfiguration
    | some .getPublicKey =>
        match KeyDisplay.ofCode? frame.header.p1 with
        | none => .error .incorrectParameters
        | some display => do
            return .getPublicKey (← pathOf frame.data) (display == .confirm)
    | some .getWalletId => do
        return .getWalletId (← pathOf frame.data)
    | some .sign =>
        match SignMode.ofCode? frame.header.p1 with
        | none => .error .incorrectParameters
        | some .more => .ok (.signChunk false frame.data)
        | some .last => .ok (.signChunk true frame.data)
        | some .blind => .ok (.blindSign frame.data)

end Command

end NearSigner
