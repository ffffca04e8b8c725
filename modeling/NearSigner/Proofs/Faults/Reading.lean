import NearSigner.Borsh.Reader
import NearSigner.Proofs.Faults.Operations

/-!
# Reading does not fault

A source is a buffer and an index into it.  Every value is read by slices of the
buffer from the index on, whose bounds are checked beforehand.  The index never
leaves the buffer and never moves back, and so reading mirrors the readers of
cursors.
-/

namespace NearSigner.Checked

open Borsh (Cursor)

/-- A buffer and the index of the next octet to be read. -/
structure Source where
  buffer : Bytes
  index : Nat
deriving DecidableEq, Repr

namespace Source

/-- The source before the first octet of a buffer. -/
def start (buffer : Bytes) : Source where
  buffer := buffer
  index := 0

/-- The number of octets that are still to be read. -/
def remaining (source : Source) : Option Nat :=
  difference source.buffer.length source.index

/-- The source reads a buffer at the place of a cursor, and not in front of a
lower bound. -/
structure At (buffer : Bytes) (lower : Nat) (source : Source) (cursor : Cursor) : Prop where
  buffer_eq : source.buffer = buffer
  above : lower ≤ source.index
  inside : source.index ≤ buffer.length
  cursor_eq : cursor = { position := source.index, rest := buffer.drop source.index }

theorem At.start (buffer : Bytes) : At buffer 0 (start buffer) (Cursor.start buffer) :=
  ⟨rfl, Nat.le_refl 0, Nat.zero_le _, rfl⟩

theorem At.lower {buffer : Bytes} {lower other : Nat} {source : Source} {cursor : Cursor}
    (here : At buffer lower source cursor) (ordered : other ≤ lower) :
    At buffer other source cursor :=
  ⟨here.buffer_eq, Nat.le_trans ordered here.above, here.inside, here.cursor_eq⟩

theorem At.remaining_eq {buffer : Bytes} {lower : Nat} {source : Source} {cursor : Cursor}
    (here : At buffer lower source cursor) : source.remaining = some cursor.remaining := by
  rw [remaining, here.buffer_eq, difference_eq_some here.inside, here.cursor_eq,
    Cursor.remaining, List.length_drop]

end Source

/-- A computation that reads a source. -/
abbrev Reader (α : Type) := Computation Source α

namespace Reader

/-- The next octets, as many as are asked for. -/
def take (count : Nat) : Reader Bytes := do
  let source ← get
  let remaining ← source.remaining
  if remaining < count then
    throw .truncatedInput
  else do
    let rest ← sliceFrom source.buffer source.index
    let octets ← sliceTo rest count
    set { source with index := source.index + count }
    return octets

/-- The next octets as a block. -/
def block (n : Nat) : Reader (Block n) := do
  let octets ← take n
  copyInto n octets

/-- The next octet. -/
def u8 : Reader UInt8 := do
  let octets ← take 1
  octetAt octets 0

/-- The integer of the number that the next octets denote. -/
def word {α : Type} (width : Nat) (ofNat : Nat → α) : Reader α := do
  let octets ← take width
  let denoting ← sliceTo octets width
  return ofNat (Bytes.toNatLE denoting)

/-- An integer of 32 bits. -/
def u32 : Reader UInt32 :=
  word 4 UInt32.ofNat

/-- An integer of 64 bits. -/
def u64 : Reader UInt64 :=
  word 8 UInt64.ofNat

/-- An integer of 128 bits. -/
def u128 : Reader Borsh.UInt128 :=
  word 16 (BitVec.ofNat 128)

/-- A byte string behind its length. -/
def byteString : Reader Bytes := do
  let length ← u32
  take length.toNat

/-- A text behind its length. -/
def text : Reader String := do
  match Bytes.toText? (← byteString) with
  | some text => pure text
  | none => throw .invalidEncoding

/-- The tag in front of a value that may be missing: whether it is there. -/
def optionTag : Reader Bool := do
  match ← u8 with
  | 0 => pure false
  | 1 => pure true
  | _ => throw .invalidEncoding

/-- A value that may be missing. -/
def option {α : Type} (value : Reader α) : Reader (Option α) := do
  if ← optionTag then
    return some (← value)
  else
    return none

/-- As many values as are asked for, up to the first failure. -/
def repeated {α : Type} (value : Reader α) : Nat → Reader (List α)
  | 0 => pure []
  | count + 1 => do
      let first ← value
      let others ← repeated value count
      return first :: others

variable {α β : Type}

/-- A reader of sources mirrors one of cursors, in every buffer and behind every
lower bound. -/
def Reads (reader : Reader α) (plain : Borsh.Reader α) : Prop :=
  ∀ buffer lower, Mirrors (Source.At buffer lower) reader plain

namespace Reads

theorem pure (value : α) : Reads (pure value) (pure value) :=
  fun _ _ => .pure value

theorem throw (refusal : Refusal) : Reads (throw refusal : Reader α) (throw refusal) :=
  fun _ _ => .throw refusal

theorem bind {reader : Reader α} {plain : Borsh.Reader α} {second : α → Reader β}
    {plainSecond : α → Borsh.Reader β} (first : Reads reader plain)
    (rest : ∀ value, Reads (second value) (plainSecond value)) :
    Reads (reader >>= second) (plain >>= plainSecond) :=
  fun buffer lower => (first buffer lower).bind fun value => rest value buffer lower

theorem lift_bind {operation : Option α} {value : α} {second : α → Reader β}
    {plain : Borsh.Reader β} (operated : operation = some value)
    (rest : Reads (second value) plain) : Reads (liftM operation >>= second) plain :=
  fun buffer lower => .lift_bind operated (rest buffer lower)

theorem lift {operation : Option α} {value : α} (operated : operation = some value) :
    Reads (liftM operation) (Pure.pure value) := by
  subst operated
  exact pure value

end Reads

variable {buffer : Bytes} {lower count : Nat} {source : Source} {cursor : Cursor}

theorem run_take_of_short (here : Source.At buffer lower source cursor)
    (short : cursor.remaining < count) :
    Computation.run (take count) source = some (.error .truncatedInput, source) := by
  simp only [take, Computation.run_bind, Computation.run_get, Computation.run_lift,
    here.remaining_eq, Option.map_some, if_pos short]
  rfl

/-- The slices that are taken lie within the buffer. -/
theorem run_take_of_enough (here : Source.At buffer lower source cursor)
    (enough : count ≤ cursor.remaining) :
    Computation.run (take count) source =
      some (.ok (cursor.rest.take count), { source with index := source.index + count }) := by
  have remaining_eq := here.remaining_eq
  rcases source with ⟨_, index⟩
  rcases here with ⟨rfl, above, inside, rfl⟩
  have sliced := sliceFrom_eq_some inside
  have taken := sliceTo_eq_some enough
  simp only [take, Computation.run_bind, Computation.run_get, Computation.run_lift,
    remaining_eq, sliced, taken, Option.map_some, if_neg (Nat.not_lt.mpr enough)]
  rfl

/-- A source and a cursor are still together when both have taken octets. -/
theorem at_advance (here : Source.At buffer lower source cursor)
    (enough : count ≤ cursor.remaining) :
    Source.At buffer lower { source with index := source.index + count }
      (cursor.advance count) := by
  have inside := here.inside
  rw [here.cursor_eq, Cursor.remaining, List.length_drop] at enough
  refine ⟨here.buffer_eq, Nat.le_trans here.above (Nat.le_add_right _ _), ?_, ?_⟩
  · change source.index + count ≤ buffer.length
    omega
  · rw [here.cursor_eq, Cursor.advance, List.drop_drop]

/-- Whatever is done with the octets that are taken, they are as many as were
asked for. -/
theorem Reads.take_bind {second : Bytes → Reader β} {plainSecond : Bytes → Borsh.Reader β}
    (rest : ∀ octets : Bytes, octets.length = count → Reads (second octets) (plainSecond octets)) :
    Reads (take count >>= second) (Borsh.Reader.take count >>= plainSecond) := by
  intro buffer lower source cursor here
  rw [MirrorsFrom, Computation.run_bind, Plain.run_bind]
  by_cases short : cursor.remaining < count
  · have refused : Plain.run (Borsh.Reader.take count) cursor =
        (.error .truncatedInput, cursor) := if_pos short
    rw [run_take_of_short here short, refused]
    exact ⟨source, rfl, here⟩
  · have enough := Nat.not_lt.mp short
    have taken : Plain.run (Borsh.Reader.take count) cursor =
        (.ok (cursor.rest.take count), cursor.advance count) := if_neg short
    rw [run_take_of_enough here enough, taken]
    exact rest _ (List.length_take_of_le enough) buffer lower _ _ (at_advance here enough)

theorem take_reads (count : Nat) : Reads (take count) (Borsh.Reader.take count) := by
  have bound : Reads (take count >>= pure) (Borsh.Reader.take count >>= pure) :=
    .take_bind fun octets _ => .pure octets
  rwa [bind_pure, bind_pure] at bound

/-! ## Values -/

theorem block_reads (n : Nat) : Reads (block n) (Borsh.Reader.block n) := by
  apply Reads.take_bind
  intro octets length_eq
  rcases recovered : Block.ofBytes? n octets with _ | octetBlock
  · exact absurd length_eq (Block.ofBytes?_eq_none_iff.mp recovered)
  · exact .lift recovered

theorem u8_reads : Reads u8 Borsh.Reader.u8 := by
  apply Reads.take_bind
  intro octets length_eq
  rcases List.length_eq_one_iff.mp length_eq with ⟨octet, rfl⟩
  exact .lift rfl

theorem word_reads (width : Nat) (ofNat : Nat → α) :
    Reads (word width ofNat) (do return ofNat (Bytes.toNatLE (← Borsh.Reader.take width))) := by
  apply Reads.take_bind
  intro octets length_eq
  apply Reads.lift_bind (sliceTo_eq_some (Nat.le_of_eq length_eq.symm))
  rw [← length_eq, List.take_length]
  exact .pure _

theorem u32_reads : Reads u32 Borsh.Reader.u32 :=
  word_reads 4 UInt32.ofNat

theorem u64_reads : Reads u64 Borsh.Reader.u64 :=
  word_reads 8 UInt64.ofNat

theorem u128_reads : Reads u128 Borsh.Reader.u128 :=
  word_reads 16 (BitVec.ofNat 128)

theorem byteString_reads : Reads byteString Borsh.Reader.byteString :=
  u32_reads.bind fun length => take_reads length.toNat

theorem text_reads : Reads text Borsh.Reader.text := by
  apply byteString_reads.bind
  intro octets
  cases Bytes.toText? octets with
  | some text => exact .pure text
  | none => exact .throw .invalidEncoding

theorem optionTag_reads : Reads optionTag Borsh.Reader.optionTag := by
  apply u8_reads.bind
  intro tag
  by_cases absent : tag = 0
  · subst absent
    exact .pure false
  · by_cases present : tag = 1
    · subst present
      exact .pure true
    · -- Both readers refuse every other tag.
      repeat' split
      all_goals first | contradiction | exact .throw .invalidEncoding

theorem option_reads {reader : Reader α} {plain : Borsh.Reader α} (reads : Reads reader plain) :
    Reads (option reader) (Borsh.Reader.option plain) := by
  apply optionTag_reads.bind
  intro present
  cases present with
  | true => exact reads.bind fun value => .pure (some value)
  | false => exact .pure none

theorem repeated_reads {reader : Reader α} {plain : Borsh.Reader α} (reads : Reads reader plain)
    (count : Nat) : Reads (repeated reader count) (Borsh.Reader.repeated plain count) := by
  induction count with
  | zero => exact .pure []
  | succ count ih =>
      exact reads.bind fun first => ih.bind fun others => .pure (first :: others)

end Reader

end NearSigner.Checked
