import NearSigner.Proofs.Codes
import NearSigner.Proofs.Frame.Request
import NearSigner.Session.Exchange

/-!
# Frames and the commands that they carry

What a host sends is what the device reads.  Every request, sent with a first
parameter that suits it, arrives as the command that it asks for; and for all
octets it is stated whether they are a frame, and for every frame which command
it carries or which of five failures is reported for it.
-/

namespace NearSigner

/-! ## Frames -/

namespace Frame

theorem writeTo_of_fits {frame : Frame} {buffer : Bytes} (counted : frame.data.length ≤ maxData)
    (fits : frame.wireLength ≤ buffer.length) :
    frame.writeTo buffer =
      (.ok frame.bytes.length, frame.bytes ++ buffer.drop frame.bytes.length) := by
  have roomy : ¬(maxData < frame.data.length ∨ buffer.length < frame.wireLength) := by
    omega
  have headed_length : (frame.header.bytes ++ [UInt8.ofNat frame.data.length]).length =
      headerLength := rfl
  have bytes_eq : frame.bytes =
      (frame.header.bytes ++ [UInt8.ofNat frame.data.length]) ++ frame.data := by
    simp [bytes]
  have length_eq : frame.bytes.length = frame.wireLength := by
    rw [bytes_eq, List.length_append, headed_length, wireLength]
  rw [writeTo, if_neg roomy, length_eq]
  simp only [Buffer.overwrite_front]
  rw [← headed_length, Buffer.overwrite_behind, List.drop_drop, bytes_eq]
  rfl

/-- A frame is read exactly from its wire form, as the whole of it. -/
theorem decode_eq_ok_iff {octets : Bytes} {frame : Frame} {used : Nat} :
    decode octets = .ok (frame, used) ↔
      octets = frame.bytes ∧ frame.data.length ≤ maxData ∧ used = octets.length := by
  constructor
  · intro decoded
    unfold decode at decoded
    split at decoded
    · rename_i cla ins p1 p2 count data
      split at decoded
      · rename_i counted
        cases decoded
        have small : data.length ≤ maxData := by
          have below := count.toNat_lt
          rw [counted, maxData]
          omega
        have count_eq : UInt8.ofNat data.length = count := by
          rw [counted, UInt8.ofNat_toNat]
        exact ⟨by simp [bytes, Header.bytes, count_eq], small, rfl⟩
      · cases decoded
    · cases decoded
  · rintro ⟨rfl, small, rfl⟩
    have counted : frame.data.length = (UInt8.ofNat frame.data.length).toNat := by
      rw [UInt8.toNat_ofNat_of_lt' (Nat.lt_succ_of_le small)]
    simp only [bytes, Header.bytes, List.cons_append, List.nil_append, decode, if_pos counted]

theorem decode_bytes {frame : Frame} (counted : frame.data.length ≤ maxData) :
    decode frame.bytes = .ok (frame, frame.bytes.length) :=
  decode_eq_ok_iff.mpr ⟨rfl, counted, rfl⟩

/-- Octets are no frame exactly when they are too few for a header or are not as
many as the last octet of the header says. -/
theorem decode_eq_error_iff {octets : Bytes} {reason : FormatError} :
    decode octets = .error reason ↔
      reason = .invalidLength ∧
        (octets.length < 5 ∨
          ∃ count, octets[4]? = some count ∧ count.toNat ≠ octets.length - 5) := by
  unfold decode
  split
  · rename_i cla ins p1 p2 count data
    by_cases counted : data.length = count.toNat
    · simp [counted]
    · simp [counted, eq_comm]
  · rename_i short
    have few : octets.length < 5 := by
      by_contra long
      match octets with
      | cla :: ins :: p1 :: p2 :: count :: data => exact short _ _ _ _ _ _ rfl
      | [] | [_] | [_, _] | [_, _, _] | [_, _, _, _] => simp at long
    simp [few, eq_comm]

end Frame

/-! ## Commands -/

namespace Command

theorem pathOf_bytes (path : Path) : pathOf path.bytes = .ok path := by
  have parsed : Path.parse path.bytes = .ok (path, []) :=
    Path.parse_eq_ok_iff.mpr (List.append_nil _).symm
  have whole : Path.wireLength = path.bytes.length := (Path.length_bytes path).symm
  simp only [pathOf, Request.decodePath, parsed, bind, Except.bind, pure, Except.pure, if_pos whole]

theorem pathOf_of_short {data : Bytes} (short : data.length < 20) :
    pathOf data = .error .truncatedInput := by
  have refused : Path.parse data = .error .invalidLength := if_pos short
  simp only [pathOf, Request.decodePath, refused, bind, Except.bind]
  rfl

theorem pathOf_of_long {data : Bytes} (long : 20 < data.length) :
    pathOf data = .error .trailingData := by
  rcases parsed : Path.parse data with reason | ⟨path, rest⟩
  · have enough : ¬data.length < Path.wireLength := Nat.not_lt.mpr (Nat.le_of_lt long)
    rw [Path.parse, if_neg enough] at parsed
    cases parsed
  · have more : Path.wireLength ≠ data.length := Nat.ne_of_lt long
    simp only [pathOf, Request.decodePath, parsed, bind, Except.bind, pure, Except.pure,
      if_neg more]

/-- Twenty octets are the wire form of a path. -/
theorem exists_path_of_length {data : Bytes} (exact_length : data.length = 20) :
    ∃ path : Path, data = path.bytes := by
  rcases parsed : Path.parse data with reason | ⟨path, rest⟩
  · rw [Path.parse, if_neg (by rw [exact_length]; decide)] at parsed
    cases parsed
  · have data_eq := Path.parse_eq_ok_iff.mp parsed
    have rest_nil : rest = [] := by
      have length_eq := congrArg List.length data_eq
      rw [List.length_append, Path.length_bytes, exact_length] at length_eq
      exact List.length_eq_zero_iff.mp (Nat.left_eq_add.mp length_eq)
    exact ⟨path, by rw [data_eq, rest_nil, List.append_nil]⟩

/-- What becomes of a frame: each failure under the condition on which it is
reported, and otherwise the command that the frame carries. -/
inductive Reads (frame : Frame) : Except Refusal Command → Prop
  | unsupportedClass (other : frame.header.cla ≠ 0x80) : Reads frame (.error .unsupportedClass)
  | unsupportedInstruction (known : frame.header.cla = 0x80)
      (other : frame.header.ins ∉ [0x02, 0x04, 0x05, 0x06]) :
      Reads frame (.error .unsupportedInstruction)
  | incorrectParameters (known : frame.header.cla = 0x80)
      (other : frame.header.ins = 0x04 ∧ frame.header.p1 ∉ [0x00, 0x01] ∨
        frame.header.ins = 0x02 ∧ frame.header.p1 ∉ [0x00, 0x80, 0x01]) :
      Reads frame (.error .incorrectParameters)
  | truncatedInput (known : frame.header.cla = 0x80)
      (ofPath : frame.header.ins = 0x04 ∧ (frame.header.p1 = 0x00 ∨ frame.header.p1 = 0x01) ∨
        frame.header.ins = 0x05)
      (short : frame.data.length < 20) : Reads frame (.error .truncatedInput)
  | trailingData (known : frame.header.cla = 0x80)
      (ofPath : frame.header.ins = 0x04 ∧ (frame.header.p1 = 0x00 ∨ frame.header.p1 = 0x01) ∨
        frame.header.ins = 0x05)
      (long : 20 < frame.data.length) : Reads frame (.error .trailingData)
  | getConfiguration (known : frame.header.cla = 0x80) (asked : frame.header.ins = 0x06) :
      Reads frame (.ok .getConfiguration)
  | getPublicKey (known : frame.header.cla = 0x80) (asked : frame.header.ins = 0x04)
      (mode : frame.header.p1 = 0x00 ∨ frame.header.p1 = 0x01) {path : Path}
      (data_eq : frame.data = path.bytes) :
      Reads frame (.ok (.getPublicKey path (frame.header.p1 == 0x00)))
  | getWalletId (known : frame.header.cla = 0x80) (asked : frame.header.ins = 0x05)
      {path : Path} (data_eq : frame.data = path.bytes) :
      Reads frame (.ok (.getWalletId path))
  | signChunk (known : frame.header.cla = 0x80) (asked : frame.header.ins = 0x02)
      (mode : frame.header.p1 = 0x00 ∨ frame.header.p1 = 0x80) :
      Reads frame (.ok (.signChunk (frame.header.p1 == 0x80) frame.data))
  | blindSign (known : frame.header.cla = 0x80) (asked : frame.header.ins = 0x02)
      (mode : frame.header.p1 = 0x01) : Reads frame (.ok (.blindSign frame.data))

/-- Something becomes of every frame. -/
theorem exists_reads (frame : Frame) : ∃ outcome, Reads frame outcome := by
  by_cases known : frame.header.cla = 0x80
  · have ofPath (make : Path → Command)
        (sized : frame.header.ins = 0x04 ∧ (frame.header.p1 = 0x00 ∨ frame.header.p1 = 0x01) ∨
          frame.header.ins = 0x05)
        (carried : ∀ path : Path, frame.data = path.bytes → Reads frame (.ok (make path))) :
        ∃ outcome, Reads frame outcome := by
      rcases Nat.lt_trichotomy frame.data.length 20 with short | exact_length | long
      · exact ⟨_, .truncatedInput known sized short⟩
      · rcases exists_path_of_length exact_length with ⟨path, data_eq⟩
        exact ⟨_, carried path data_eq⟩
      · exact ⟨_, .trailingData known sized long⟩
    by_cases listed : frame.header.ins ∈ [0x02, 0x04, 0x05, 0x06]
    · simp only [List.mem_cons, List.not_mem_nil, or_false] at listed
      rcases listed with sign | publicKey | walletId | configuration
      · by_cases fragment : frame.header.p1 = 0x00 ∨ frame.header.p1 = 0x80
        · exact ⟨_, .signChunk known sign fragment⟩
        · by_cases blind : frame.header.p1 = 0x01
          · exact ⟨_, .blindSign known sign blind⟩
          · have other : frame.header.p1 ∉ [0x00, 0x80, 0x01] := by
              simp_all
            exact ⟨_, .incorrectParameters known (.inr ⟨sign, other⟩)⟩
      · by_cases mode : frame.header.p1 = 0x00 ∨ frame.header.p1 = 0x01
        · exact ofPath _ (.inl ⟨publicKey, mode⟩) fun _ data_eq =>
            .getPublicKey known publicKey mode data_eq
        · have other : frame.header.p1 ∉ [0x00, 0x01] := by
            simp_all
          exact ⟨_, .incorrectParameters known (.inl ⟨publicKey, other⟩)⟩
      · exact ofPath _ (.inr walletId) fun _ data_eq => .getWalletId known walletId data_eq
      · exact ⟨_, .getConfiguration known configuration⟩
    · exact ⟨_, .unsupportedInstruction known listed⟩
  · exact ⟨_, .unsupportedClass known⟩

theorem ofFrame_getWalletId (p1 p2 : UInt8) (data : Bytes) :
    ofFrame ⟨⟨0x80, 0x05, p1, p2⟩, data⟩ = (do return .getWalletId (← pathOf data)) :=
  rfl

theorem ofFrame_getPublicKey (display : KeyDisplay) (p2 : UInt8) (data : Bytes) :
    ofFrame ⟨⟨0x80, 0x04, display.code, p2⟩, data⟩ =
      (do return .getPublicKey (← pathOf data) (display == .confirm)) := by
  cases display <;> rfl

/-- A failure to read the path is the failure of the frame. -/
theorem ofFrame_of_pathOf_error {cla ins p1 p2 : UInt8} {data : Bytes} {refusal : Refusal}
    (known : cla = 0x80) (ofPath : ins = 0x04 ∧ (p1 = 0x00 ∨ p1 = 0x01) ∨ ins = 0x05)
    (refused : pathOf data = .error refusal) :
    ofFrame ⟨⟨cla, ins, p1, p2⟩, data⟩ = .error refusal := by
  subst known
  rcases ofPath with ⟨rfl, rfl | rfl⟩ | rfl
  · exact (ofFrame_getPublicKey .confirm p2 data).trans (by rw [refused]; rfl)
  · exact (ofFrame_getPublicKey .silent p2 data).trans (by rw [refused]; rfl)
  · rw [ofFrame_getWalletId, refused]
    rfl

/-- A frame is read as stated. -/
theorem ofFrame_of_reads {frame : Frame} {outcome : Except Refusal Command}
    (reads : Reads frame outcome) : ofFrame frame = outcome := by
  rcases frame with ⟨⟨cla, ins, p1, p2⟩, data⟩
  have own : ¬(0x80 : UInt8) ≠ Frame.deviceClass := by decide
  cases reads with
  | unsupportedClass other => exact if_pos other
  | unsupportedInstruction known other =>
      have unknown : Instruction.ofCode? ins = none := find?_code_eq_none other
      obtain rfl : cla = 0x80 := known
      simp only [ofFrame, if_neg own, unknown]
  | incorrectParameters known other =>
      obtain rfl : cla = 0x80 := known
      rcases other with ⟨asked, mode⟩ | ⟨asked, mode⟩
      · have unknown : KeyDisplay.ofCode? p1 = none := find?_code_eq_none mode
        obtain rfl : ins = 0x04 := asked
        have found : Instruction.ofCode? 0x04 = some .getPublicKey := rfl
        simp only [ofFrame, if_neg own, found, unknown]
      · have unknown : SignMode.ofCode? p1 = none := find?_code_eq_none mode
        obtain rfl : ins = 0x02 := asked
        have found : Instruction.ofCode? 0x02 = some .sign := rfl
        simp only [ofFrame, if_neg own, found, unknown]
  | truncatedInput known ofPath short =>
      exact ofFrame_of_pathOf_error known ofPath (pathOf_of_short short)
  | trailingData known ofPath long =>
      exact ofFrame_of_pathOf_error known ofPath (pathOf_of_long long)
  | getConfiguration known asked =>
      obtain rfl : cla = 0x80 := known
      obtain rfl : ins = 0x06 := asked
      rfl
  | @getPublicKey known asked mode path data_eq =>
      obtain rfl : cla = 0x80 := known
      obtain rfl : ins = 0x04 := asked
      obtain rfl : data = path.bytes := data_eq
      have read := pathOf_bytes path
      rcases mode with confirm | silent
      · obtain rfl : p1 = 0x00 := confirm
        exact (ofFrame_getPublicKey .confirm p2 _).trans (by rw [read]; rfl)
      · obtain rfl : p1 = 0x01 := silent
        exact (ofFrame_getPublicKey .silent p2 _).trans (by rw [read]; rfl)
  | @getWalletId known asked path data_eq =>
      obtain rfl : cla = 0x80 := known
      obtain rfl : ins = 0x05 := asked
      obtain rfl : data = path.bytes := data_eq
      rw [ofFrame_getWalletId, pathOf_bytes]
      rfl
  | signChunk known asked mode =>
      obtain rfl : cla = 0x80 := known
      obtain rfl : ins = 0x02 := asked
      rcases mode with more | last
      · obtain rfl : p1 = 0x00 := more
        rfl
      · obtain rfl : p1 = 0x80 := last
        rfl
  | blindSign known asked mode =>
      obtain rfl : cla = 0x80 := known
      obtain rfl : ins = 0x02 := asked
      obtain rfl : p1 = 0x01 := mode
      rfl

theorem ofFrame_eq_iff {frame : Frame} {outcome : Except Refusal Command} :
    ofFrame frame = outcome ↔ Reads frame outcome := by
  constructor
  · rintro rfl
    rcases exists_reads frame with ⟨outcome, reads⟩
    rwa [ofFrame_of_reads reads]
  · exact ofFrame_of_reads

/-- Frames carry the same when they agree in all that is looked at: the class and
the instruction, the first parameter unless the instruction has no variants, and
the data unless the version is asked for. -/
theorem ofFrame_congr {first second : Frame} (cla_eq : first.header.cla = second.header.cla)
    (ins_eq : first.header.ins = second.header.ins)
    (p1_eq : first.header.p1 = second.header.p1 ∨ first.header.ins = 0x05 ∨
      first.header.ins = 0x06)
    (data_eq : first.data = second.data ∨ first.header.ins = 0x06) :
    ofFrame first = ofFrame second := by
  rcases first with ⟨⟨cla, ins, p1, p2⟩, data⟩
  rcases second with ⟨⟨cla', ins', p1', p2'⟩, data'⟩
  obtain rfl : cla = cla' := cla_eq
  obtain rfl : ins = ins' := ins_eq
  by_cases configuration : ins = 0x06
  · subst configuration
    rfl
  · obtain rfl : data = data' := data_eq.resolve_right configuration
    rcases p1_eq with same | walletId | configured
    · obtain rfl : p1 = p1' := same
      rfl
    · obtain rfl : ins = 0x05 := walletId
      rfl
    · exact absurd configured configuration

end Command

/-! ## What a host sends -/

namespace Request

/-- The command that a request asks for under the first parameter with which it
is sent. -/
inductive Asks : Request → UInt8 → Command → Prop
  | configuration (p1 : UInt8) : Asks .configuration p1 .getConfiguration
  | publicKey (path : Path) {p1 : UInt8} (mode : p1 = 0x00 ∨ p1 = 0x01) :
      Asks (.publicKey path) p1 (.getPublicKey path (p1 == 0x00))
  | walletId (path : Path) (p1 : UInt8) : Asks (.walletId path) p1 (.getWalletId path)
  | chunk {data : Bytes} (counted : data.length ≤ 255) {p1 : UInt8}
      (mode : p1 = 0x00 ∨ p1 = 0x80) : Asks (.chunk data) p1 (.signChunk (p1 == 0x80) data)
  | blindSign (path : Path) (hash : Block 32) :
      Asks (.blindSign path hash) 0x01 (.blindSign (path.bytes ++ hash.toBytes))

variable {request : Request} {p1 : UInt8} {command : Command}

theorem Asks.counted (asks : request.Asks p1 command) :
    request.payload.length ≤ Frame.maxData := by
  cases asks with
  | configuration p1 => exact Nat.zero_le _
  | publicKey path mode => simp [payload, Path.wireLength, Path.componentCount, Frame.maxData]
  | walletId path p1 => simp [payload, Path.wireLength, Path.componentCount, Frame.maxData]
  | chunk counted mode => exact counted
  | blindSign path hash =>
      rw [length_payload_blindSign]
      decide

theorem Asks.reads (asks : request.Asks p1 command) :
    Command.Reads (request.frame p1) (.ok command) := by
  cases asks with
  | configuration p1 => exact .getConfiguration rfl rfl
  | publicKey path mode => exact .getPublicKey rfl rfl mode rfl
  | walletId path p1 => exact .getWalletId rfl rfl rfl
  | chunk counted mode => exact .signChunk rfl rfl mode
  | blindSign path hash => exact .blindSign rfl rfl rfl

end Request

namespace Session

theorem handleFrame_congr {first second : Frame} (firstCounted : first.data.length ≤ Frame.maxData)
    (secondCounted : second.data.length ≤ Frame.maxData)
    (same : Command.ofFrame first = Command.ofFrame second) (device : Device) (capacity : Nat)
    (session : Session) :
    session.handleFrame device capacity first.bytes =
      session.handleFrame device capacity second.bytes := by
  simp only [handleFrame, Frame.decode_bytes firstCounted, Frame.decode_bytes secondCounted, same]

end Session

namespace Command

/-- Hosts and devices agree on every frame.  A request that a host writes into
buffers that can hold it is read back as one frame, and the frame carries the
command that the request asks for.  Octets are no frame exactly when they are
fewer than five or are not as many as they declare; and what becomes of a frame
is stated failure by failure.  Frames that differ in nothing that is looked at
carry the same, and no session tells them apart. -/
theorem hosts_and_devices_agree :
    (∀ request p1 command, Request.Asks request p1 command → ∀ buffer frameBuffer : Bytes,
      request.payload.length ≤ buffer.length →
      5 + request.payload.length ≤ frameBuffer.length →
        let frame := request.frame p1
        request.writeTo buffer =
          (.ok request.payload.length, request.payload ++ buffer.drop request.payload.length) ∧
        frame.writeTo frameBuffer =
          (.ok frame.bytes.length, frame.bytes ++ frameBuffer.drop frame.bytes.length) ∧
        Frame.decode frame.bytes = .ok (frame, frame.bytes.length) ∧
        ofFrame frame = .ok command) ∧
    (∀ octets reason, Frame.decode octets = .error reason ↔
      reason = .invalidLength ∧
        (octets.length < 5 ∨
          ∃ count, octets[4]? = some count ∧ count.toNat ≠ octets.length - 5)) ∧
    (∀ octets frame used, Frame.decode octets = .ok (frame, used) ↔
      octets = frame.bytes ∧ frame.data.length ≤ 255 ∧ used = octets.length) ∧
    (∀ frame outcome, ofFrame frame = outcome ↔ Reads frame outcome) ∧
    (∀ first second : Frame, first.header.cla = second.header.cla →
      first.header.ins = second.header.ins →
      (first.header.p1 = second.header.p1 ∨ first.header.ins = 0x05 ∨ first.header.ins = 0x06) →
      (first.data = second.data ∨ first.header.ins = 0x06) →
        ofFrame first = ofFrame second ∧
        (first.data.length ≤ 255 → second.data.length ≤ 255 → ∀ device capacity session,
          Session.handleFrame device capacity first.bytes session =
            Session.handleFrame device capacity second.bytes session)) := by
  constructor
  · intro request p1 command asks buffer frameBuffer fits frameFits frame
    have counted : frame.data.length ≤ Frame.maxData := asks.counted
    exact ⟨Request.writeTo_of_fits fits, Frame.writeTo_of_fits counted frameFits,
      Frame.decode_bytes counted, ofFrame_of_reads asks.reads⟩
  constructor
  · intro octets reason
    exact Frame.decode_eq_error_iff
  constructor
  · intro octets frame used
    exact Frame.decode_eq_ok_iff
  constructor
  · intro frame outcome
    exact ofFrame_eq_iff
  · intro first second cla_eq ins_eq p1_eq data_eq
    have same := ofFrame_congr cla_eq ins_eq p1_eq data_eq
    exact ⟨same, fun firstCounted secondCounted device capacity session =>
      Session.handleFrame_congr firstCounted secondCounted same device capacity session⟩

/-- A hash signing request is read back, and its octets with another mode are
not. -/
theorem agree_on_hashRequest :
    let request : Request := .blindSign (Path.ofAccount 3) (Vector.replicate 32 9)
    let frame := request.frame 0x01
    request.Asks 0x01 (.blindSign request.payload) ∧
    frame.writeTo (List.replicate 57 0) = (.ok 57, frame.bytes) ∧
    Frame.decode frame.bytes = .ok (frame, 57) ∧
    ofFrame frame = .ok (.blindSign request.payload) ∧
    ofFrame (request.frame 0x02) = .error .incorrectParameters ∧
    Frame.decode (frame.bytes ++ [0]) = .error .invalidLength := by
  intro request frame
  obtain ⟨sent, noFrame, _, read, _⟩ := hosts_and_devices_agree
  have asks : request.Asks 0x01 (.blindSign request.payload) := .blindSign _ _
  have other : Reads (request.frame 0x02) (.error .incorrectParameters) :=
    .incorrectParameters rfl (.inr ⟨rfl, by decide⟩)
  obtain ⟨_, written, decoded, carried⟩ :=
    sent request 0x01 _ asks (List.replicate 52 0) (List.replicate 57 0) (by decide) (by decide)
  exact ⟨asks, written, decoded, carried, (read _ _).mpr other,
    (noFrame _ _).mpr ⟨rfl, .inr ⟨52, rfl, by decide⟩⟩⟩

end Command

end NearSigner
