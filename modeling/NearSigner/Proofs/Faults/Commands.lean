import NearSigner.Proofs.Faults.Operations
import NearSigner.Proofs.Session.Dialogue

/-!
# Reading and writing frames does not fault

The octets of a frame are looked up by their places, and its data are a slice.
The components of a path are read from a slice of exactly their length, and
what follows a path is a slice again.
-/

namespace NearSigner.Checked

/-! ## Frames -/

/-- Read a whole sequence as one frame, with the number of octets it takes. -/
def readFrame (octets : Bytes) : Option (Except FormatError (Frame × Nat)) :=
  if octets.length < Frame.headerLength then
    some (.error .invalidLength)
  else do
    let cla ← octetAt octets 0
    let ins ← octetAt octets 1
    let p1 ← octetAt octets 2
    let p2 ← octetAt octets 3
    let count ← octetAt octets 4
    let data ← sliceFrom octets Frame.headerLength
    if data.length = count.toNat then
      return .ok ({ header := { cla, ins, p1, p2 }, data }, octets.length)
    else
      return .error .invalidLength

theorem readFrame_eq_some (octets : Bytes) : readFrame octets = some (Frame.decode octets) := by
  rcases octets with _ | ⟨cla, _ | ⟨ins, _ | ⟨p1, _ | ⟨p2, _ | ⟨count, data⟩⟩⟩⟩⟩
  · rfl
  · rfl
  · rfl
  · rfl
  · rfl
  · have long : Frame.headerLength ≤ (cla :: ins :: p1 :: p2 :: count :: data).length :=
      Nat.le_add_left 5 data.length
    rw [readFrame, if_neg (Nat.not_lt.mpr long), sliceFrom_eq_some long]
    change (if data.length = count.toNat then _ else _) =
      some (if data.length = count.toNat then _ else _)
    split <;> rfl

/-- Write a frame over the front of a buffer. -/
def writeFrame (frame : Frame) (buffer : Bytes) : Option Buffer.Written :=
  if Frame.maxData < frame.data.length ∨ buffer.length < frame.wireLength then
    some (.error .invalidLength, buffer)
  else do
    let headed ← putOctets buffer 0 (frame.header.bytes ++ [UInt8.ofNat frame.data.length])
    let written ← copyBetween headed Frame.headerLength frame.wireLength frame.data
    return (.ok frame.wireLength, written)

theorem writeFrame_eq_some (frame : Frame) (buffer : Bytes) :
    writeFrame frame buffer = some (frame.writeTo buffer) := by
  rw [writeFrame, Frame.writeTo]
  split
  · rfl
  · rename_i writable
    have fits : frame.wireLength ≤ buffer.length := Nat.not_lt.mp (not_or.mp writable).2
    have headFits : 0 + (frame.header.bytes ++ [UInt8.ofNat frame.data.length]).length ≤
        buffer.length := Nat.le_trans (Nat.le_add_right 5 _) fits
    have whole : Frame.headerLength + frame.data.length = frame.wireLength := rfl
    have copied := copyBetween_eq_some whole
      (Nat.le_trans fits (Nat.le_of_eq (Buffer.length_overwrite headFits).symm))
    rw [putOctets_eq_some headFits, Option.bind_eq_bind, Option.bind_some, copied]
    rfl

/-! ## Paths -/

/-- Read so many components from octets, which have to be as many as those take. -/
def readComponents (count : Nat) (octets : Bytes) : Option (List UInt32) :=
  if octets.length = count * 4 then
    some ((List.range count).map fun place => Path.componentAt octets (place * 4))
  else
    none

/-- A path at the head of a payload, with the number of octets it takes. -/
def readPath (octets : Bytes) : Option (Except FormatError (Path × Nat)) :=
  if octets.length < Path.wireLength then
    some (.error .invalidLength)
  else do
    let front ← sliceTo octets Path.wireLength
    let components ← readComponents Path.componentCount front
    let path ← Path.ofComponents? components
    return .ok (path, Path.wireLength)

theorem componentAt_take {octets : Bytes} {offset count : Nat} (inside : offset + 4 ≤ count) :
    Path.componentAt (octets.take count) offset = Path.componentAt octets offset := by
  have within : 4 ≤ count - offset := by omega
  rw [Path.componentAt, Path.componentAt, List.drop_take, List.take_take, Nat.min_eq_left within]

theorem readPath_eq_some (octets : Bytes) : readPath octets = some (Request.decodePath octets) := by
  rw [readPath, Request.decodePath, Path.parse]
  by_cases short : octets.length < Path.wireLength
  · rw [if_pos short, if_pos short]
    rfl
  · have long : Path.wireLength ≤ octets.length := Nat.not_lt.mp short
    have components : readComponents Path.componentCount (octets.take Path.wireLength) =
        some [Path.componentAt octets 0, Path.componentAt octets 4, Path.componentAt octets 8,
          Path.componentAt octets 12, Path.componentAt octets 16] := by
      have length_eq : (octets.take Path.wireLength).length = Path.componentCount * 4 :=
        List.length_take_of_le long
      rw [readComponents, if_pos length_eq]
      change some [Path.componentAt _ 0, Path.componentAt _ 4, Path.componentAt _ 8,
        Path.componentAt _ 12, Path.componentAt _ 16] = _
      rw [componentAt_take (by decide), componentAt_take (by decide),
        componentAt_take (by decide), componentAt_take (by decide),
        componentAt_take (by decide)]
    rw [if_neg short, if_neg short, sliceTo_eq_some long, Option.bind_eq_bind, Option.bind_some,
      components]
    rfl

/-- The path at the head of a message and what follows it. -/
def parsePath (octets : Bytes) : Option (Except FormatError (Path × Bytes)) := do
  match ← readPath octets with
  | .ok (path, used) =>
      let rest ← sliceFrom octets used
      return .ok (path, rest)
  | .error reason => return .error reason

theorem parsePath_eq_some (octets : Bytes) : parsePath octets = some (Path.parse octets) := by
  rw [parsePath, readPath_eq_some, Request.decodePath, Path.parse]
  by_cases short : octets.length < Path.wireLength
  · rw [if_pos short]
    rfl
  · rw [if_neg short]
    change (sliceFrom octets Path.wireLength >>= _) = _
    rw [sliceFrom_eq_some (Nat.not_lt.mp short)]
    rfl

/-- The path and the hash of a payload that consists of nothing else. -/
def readHashRequest (data : Bytes) : Option (Except FormatError (Path × Block 32)) :=
  if data.length = blindPayloadLength then do
    match ← readPath data with
    | .ok (path, used) =>
        let rest ← sliceFrom data used
        let hash ← copyInto hashLength rest
        return .ok (path, hash)
    | .error reason => return .error reason
  else
    some (.error .invalidLength)

theorem readHashRequest_eq_some (data : Bytes) :
    readHashRequest data = some (Request.decodeBlind data) := by
  rw [readHashRequest, Request.decodeBlind]
  by_cases exact_length : data.length = blindPayloadLength
  · have long : Path.wireLength ≤ data.length := by
      rw [exact_length]
      exact Nat.le_add_right _ _
    have rest_length : (data.drop Path.wireLength).length = hashLength := by
      rw [List.length_drop, exact_length]
      rfl
    obtain ⟨path, parsed⟩ : ∃ path, Path.parse data = .ok (path, data.drop Path.wireLength) :=
      ⟨_, if_neg (Nat.not_lt.mpr long)⟩
    have front : readPath data = some (.ok (path, Path.wireLength)) := by
      rw [readPath_eq_some, Request.decodePath, parsed]
      rfl
    rw [if_pos exact_length, if_pos exact_length, front, parsed, Option.bind_eq_bind,
      Option.bind_some]
    rcases recovered : Block.ofBytes? hashLength (data.drop Path.wireLength) with _ | hash
    · exact absurd rest_length (Block.ofBytes?_eq_none_iff.mp recovered)
    · simp only [sliceFrom_eq_some long, copyInto, recovered, Option.bind_some, bind, Except.bind]
      rfl
  · rw [if_neg exact_length, if_neg exact_length]

/-! ## Commands -/

/-- The path that the data of a frame consists of. -/
def pathOf (data : Bytes) : Option (Except Refusal Path) := do
  match ← readPath data with
  | .ok (path, used) =>
      return if used = data.length then .ok path else .error .trailingData
  | .error reason => return .error (Refusal.ofFormatError reason)

theorem pathOf_eq_some (data : Bytes) : pathOf data = some (Command.pathOf data) := by
  rw [pathOf, readPath_eq_some, Command.pathOf]
  rcases Request.decodePath data with _ | ⟨path, used⟩ <;> rfl

/-- The command that a frame carries. -/
def commandOf (frame : Frame) : Option (Except Refusal Command) :=
  if frame.header.cla ≠ Frame.deviceClass then
    some (.error .unsupportedClass)
  else
    match Instruction.ofCode? frame.header.ins with
    | none => some (.error .unsupportedInstruction)
    | some .getConfiguration => some (.ok .getConfiguration)
    | some .getPublicKey =>
        match KeyDisplay.ofCode? frame.header.p1 with
        | none => some (.error .incorrectParameters)
        | some display => do
            let path ← pathOf frame.data
            return path.map fun path => .getPublicKey path (display == .confirm)
    | some .getWalletId => do
        let path ← pathOf frame.data
        return path.map .getWalletId
    | some .sign =>
        match SignMode.ofCode? frame.header.p1 with
        | none => some (.error .incorrectParameters)
        | some .more => some (.ok (.signChunk false frame.data))
        | some .last => some (.ok (.signChunk true frame.data))
        | some .blind => some (.ok (.blindSign frame.data))

theorem commandOf_eq_some (frame : Frame) : commandOf frame = some (Command.ofFrame frame) := by
  rw [commandOf, Command.ofFrame]
  by_cases foreign : frame.header.cla ≠ Frame.deviceClass
  · rw [if_pos foreign, if_pos foreign]
  · rw [if_neg foreign, if_neg foreign, pathOf_eq_some]
    rcases Instruction.ofCode? frame.header.ins with _ | instruction
    · rfl
    · cases instruction with
      | getConfiguration => rfl
      | getPublicKey =>
          rcases KeyDisplay.ofCode? frame.header.p1 with _ | display
          · rfl
          · rcases Command.pathOf frame.data with _ | path <;> rfl
      | getWalletId => rcases Command.pathOf frame.data with _ | path <;> rfl
      | sign =>
          rcases SignMode.ofCode? frame.header.p1 with _ | mode
          · rfl
          · cases mode <;> rfl

/-- The command that a sequence of octets carries as a frame. -/
def commandIn (octets : Bytes) : Option (Except Refusal Command) := do
  match ← readFrame octets with
  | .ok (frame, _) => commandOf frame
  | .error _ => return .error .wrongDataLength

theorem commandIn_eq_some (octets : Bytes) :
    commandIn octets = some (Command.ofOctets octets) := by
  rw [commandIn, readFrame_eq_some, Command.ofOctets]
  rcases Frame.decode octets with _ | ⟨frame, used⟩
  · rfl
  · exact commandOf_eq_some frame

end NearSigner.Checked
