import NearSigner.Frame.Buffer
import NearSigner.Refusal

/-!
# Operations that can fault

Some operations have no result for some operands: a slice beyond the end of its
buffer, a copy between buffers of different lengths, a difference below zero, a
number that does not fit a word.  A device that reaches one of them with such
operands stops for good.  Here an operation has no result then, and neither has
a computation that reaches it.

A computation with such operations mirrors one without when it never faults and
has the same result, whatever the operands.
-/

namespace NearSigner.Checked

/-! ## Operations -/

/-- The octets of a buffer from an offset on. -/
def sliceFrom (buffer : Bytes) (offset : Nat) : Option Bytes :=
  if offset ≤ buffer.length then some (buffer.drop offset) else none

/-- The octets of a buffer in front of an offset. -/
def sliceTo (buffer : Bytes) (offset : Nat) : Option Bytes :=
  if offset ≤ buffer.length then some (buffer.take offset) else none

/-- The octet of a buffer at a place. -/
def octetAt (buffer : Bytes) (place : Nat) : Option UInt8 :=
  buffer[place]?

/-- Copy a buffer into a block, which has to have its length. -/
def copyInto (n : Nat) (buffer : Bytes) : Option (Block n) :=
  Block.ofBytes? n buffer

/-- Copy octets over the part of a buffer between two offsets, which has to have
their length. -/
def copyBetween (buffer : Bytes) (first last : Nat) (octets : Bytes) : Option Bytes := do
  let front ← sliceTo buffer last
  let room ← sliceFrom front first
  if octets.length = room.length then
    some (Buffer.overwrite buffer first octets)
  else
    none

/-- Put an octet at a place of a buffer. -/
def putOctet (buffer : Bytes) (place : Nat) (octet : UInt8) : Option Bytes :=
  if place < buffer.length then some (buffer.set place octet) else none

/-- Put octets at the places of a buffer from an offset on, one after the
other. -/
def putOctets (buffer : Bytes) (offset : Nat) : Bytes → Option Bytes
  | [] => some buffer
  | octet :: others => do
      let changed ← putOctet buffer offset octet
      putOctets changed (offset + 1) others

/-- The difference of two numbers, which must not be below zero. -/
def difference (larger smaller : Nat) : Option Nat :=
  if smaller ≤ larger then some (larger - smaller) else none

/-- The words of a device are numbers below this limit. -/
def wordLimit : Nat := UInt32.size

/-- The number behind a word, which has to be a word. -/
def successor (word : Nat) : Option Nat :=
  if word + 1 < wordLimit then some (word + 1) else none

section Operations

variable {buffer : Bytes}

theorem sliceFrom_eq_some {offset : Nat} (inside : offset ≤ buffer.length) :
    sliceFrom buffer offset = some (buffer.drop offset) :=
  if_pos inside

theorem sliceTo_eq_some {offset : Nat} (inside : offset ≤ buffer.length) :
    sliceTo buffer offset = some (buffer.take offset) :=
  if_pos inside

theorem copyBetween_eq_some {first last : Nat} {octets : Bytes}
    (between : first + octets.length = last) (inside : last ≤ buffer.length) :
    copyBetween buffer first last octets = some (Buffer.overwrite buffer first octets) := by
  have front_length : (buffer.take last).length = last := List.length_take_of_le inside
  have room_length : octets.length = ((buffer.take last).drop first).length := by
    rw [List.length_drop, front_length]
    omega
  have room : sliceFrom (buffer.take last) first = some ((buffer.take last).drop first) :=
    sliceFrom_eq_some (by omega)
  rw [copyBetween, sliceTo_eq_some inside, Option.bind_eq_bind, Option.bind_some, room,
    Option.bind_some, if_pos room_length]

theorem putOctet_eq_some {place : Nat} (inside : place < buffer.length) (octet : UInt8) :
    putOctet buffer place octet = some (buffer.set place octet) :=
  if_pos inside

/-- Putting octets one by one is overwriting with all of them. -/
theorem putOctets_eq_some {offset : Nat} {octets : Bytes}
    (fits : offset + octets.length ≤ buffer.length) :
    putOctets buffer offset octets = some (Buffer.overwrite buffer offset octets) := by
  induction octets generalizing buffer offset with
  | nil => simp [putOctets, Buffer.overwrite]
  | cons octet others ih =>
      rw [List.length_cons] at fits
      have inside : offset < buffer.length := by omega
      have others_fit : offset + 1 + others.length ≤ (buffer.set offset octet).length := by
        rw [List.length_set]
        omega
      have front : (buffer.set offset octet).take (offset + 1) = buffer.take offset ++ [octet] := by
        rw [List.take_succ_eq_append_getElem (by rwa [List.length_set]), List.take_set_of_le,
          List.getElem_set_self]
        exact Nat.le_refl offset
      have behind : (buffer.set offset octet).drop (offset + 1 + others.length) =
          buffer.drop (offset + (others.length + 1)) := by
        rw [List.drop_set_of_lt (by omega)]
        congr 1
        omega
      rw [putOctets, putOctet_eq_some inside, Option.bind_eq_bind, Option.bind_some,
        ih others_fit]
      simp only [Buffer.overwrite, front, behind, List.append_assoc, List.singleton_append,
        List.length_cons]

theorem difference_eq_some {larger smaller : Nat} (ordered : smaller ≤ larger) :
    difference larger smaller = some (larger - smaller) :=
  if_pos ordered

theorem successor_eq_some {word : Nat} (fits : word + 1 < wordLimit) :
    successor word = some (word + 1) :=
  if_pos fits

end Operations

/-- Beyond these bounds there is no result. -/
example : sliceFrom [1, 2] 3 = none ∧ copyInto 3 [1, 2] = none ∧ difference 1 2 = none ∧
    successor 4294967295 = none := by
  decide

/-! ## Computations -/

/-- A computation with a state that may be refused and may fault. -/
abbrev Computation (σ α : Type) := ExceptT Refusal (StateT σ Option) α

/-- A computation with a state that may be refused and never faults. -/
abbrev Plain (τ α : Type) := ExceptT Refusal (StateM τ) α

variable {σ τ α β : Type}

/-- Run a computation, from a state. -/
def Computation.run (computation : Computation σ α) (state : σ) :
    Option (Except Refusal α × σ) :=
  StateT.run (ExceptT.run computation) state

/-- Run a computation that never faults, from a state. -/
def Plain.run (plain : Plain τ α) (state : τ) : Except Refusal α × τ :=
  StateT.run (ExceptT.run plain) state

/-- A computation that never faults, among those that may. -/
def Computation.ofPlain (plain : Plain σ α) : Computation σ α := fun state =>
  some (Plain.run plain state)

theorem Computation.run_bind (first : Computation σ α) (second : α → Computation σ β)
    (state : σ) :
    Computation.run (first >>= second) state =
      match Computation.run first state with
      | some (.ok value, next) => Computation.run (second value) next
      | some (.error refusal, next) => some (.error refusal, next)
      | none => none := by
  simp only [Computation.run, ExceptT.run_bind, StateT.run_bind]
  rcases StateT.run (ExceptT.run first) state with _ | ⟨result, next⟩
  · rfl
  · cases result <;> rfl

theorem Computation.run_get (state : σ) :
    Computation.run (get : Computation σ σ) state = some (.ok state, state) :=
  rfl

theorem Computation.run_lift (operation : Option α) (state : σ) :
    Computation.run (liftM operation) state = operation.map fun value => (.ok value, state) := by
  cases operation <;> rfl

theorem Plain.run_bind (first : Plain τ α) (second : α → Plain τ β) (state : τ) :
    Plain.run (first >>= second) state =
      match Plain.run first state with
      | (.ok value, next) => Plain.run (second value) next
      | (.error refusal, next) => (.error refusal, next) := by
  simp only [Plain.run, ExceptT.run_bind, StateT.run_bind]
  rcases StateT.run (ExceptT.run first) state with ⟨result, next⟩
  cases result <;> rfl

/-- From two states a computation has the result of one that never faults, and
the states afterwards are related. -/
def MirrorsFrom (related : σ → τ → Prop) (computation : Computation σ α) (plain : Plain τ α)
    (state : σ) (plainState : τ) : Prop :=
  ∃ next, Computation.run computation state = some ((Plain.run plain plainState).1, next) ∧
    related next (Plain.run plain plainState).2

/-- A computation mirrors one that never faults from all related states. -/
def Mirrors (related : σ → τ → Prop) (computation : Computation σ α) (plain : Plain τ α) :
    Prop :=
  ∀ state plainState, related state plainState →
    MirrorsFrom related computation plain state plainState

namespace MirrorsFrom

variable {related weaker : σ → τ → Prop} {state : σ} {plainState : τ}

theorem pure (value : α) (here : related state plainState) :
    MirrorsFrom related (pure value) (pure value) state plainState :=
  ⟨state, rfl, here⟩

theorem throw (refusal : Refusal) (here : related state plainState) :
    MirrorsFrom related (throw refusal : Computation σ α) (throw refusal) state plainState :=
  ⟨state, rfl, here⟩

/-- One computation after another mirrors what each of them mirrors. -/
theorem bind {computation : Computation σ α} {plain : Plain τ α}
    {second : α → Computation σ β} {plainSecond : α → Plain τ β}
    (first : MirrorsFrom related computation plain state plainState)
    (weaken : ∀ next plainNext, related next plainNext → weaker next plainNext)
    (rest : ∀ value next plainNext, related next plainNext →
      MirrorsFrom weaker (second value) (plainSecond value) next plainNext) :
    MirrorsFrom weaker (computation >>= second) (plain >>= plainSecond) state plainState := by
  rcases first with ⟨next, run_eq, there⟩
  rw [MirrorsFrom, Computation.run_bind, Plain.run_bind, run_eq]
  generalize Plain.run plain plainState = outcome at there
  rcases outcome with ⟨refusal | value, plainNext⟩
  · exact ⟨next, rfl, weaken next plainNext there⟩
  · exact rest value next plainNext there

/-- An operation whose operands are right does not fault. -/
theorem lift_bind {operation : Option α} {value : α} {second : α → Computation σ β}
    {plain : Plain τ β} (operated : operation = some value)
    (rest : MirrorsFrom related (second value) plain state plainState) :
    MirrorsFrom related (liftM operation >>= second) plain state plainState := by
  rw [MirrorsFrom, Computation.run_bind, operated]
  exact rest

/-- A look at the state has an effect on neither side. -/
theorem get_bind {second : σ → Computation σ β} {plainSecond : τ → Plain τ β}
    (rest : MirrorsFrom related (second state) (plainSecond plainState) state plainState) :
    MirrorsFrom related (get >>= second) (get >>= plainSecond) state plainState :=
  rest

end MirrorsFrom

namespace Mirrors

variable {related : σ → τ → Prop}

theorem pure (value : α) : Mirrors related (pure value) (pure value) :=
  fun _ _ here => .pure value here

theorem throw (refusal : Refusal) :
    Mirrors related (throw refusal : Computation σ α) (throw refusal) :=
  fun _ _ here => .throw refusal here

theorem bind {computation : Computation σ α} {plain : Plain τ α}
    {second : α → Computation σ β} {plainSecond : α → Plain τ β}
    (first : Mirrors related computation plain)
    (rest : ∀ value, Mirrors related (second value) (plainSecond value)) :
    Mirrors related (computation >>= second) (plain >>= plainSecond) :=
  fun state plainState here =>
    (first state plainState here).bind (fun _ _ there => there)
      fun value next plainNext there => rest value next plainNext there

theorem lift_bind {operation : Option α} {value : α} {second : α → Computation σ β}
    {plain : Plain τ β} (operated : operation = some value)
    (rest : Mirrors related (second value) plain) :
    Mirrors related (liftM operation >>= second) plain :=
  fun state plainState here => .lift_bind operated (rest state plainState here)

/-- A check that may refuse has an effect on neither side. -/
theorem check (result : Except Refusal α) :
    Mirrors related (liftM result : Computation σ α) (liftM result) := by
  cases result with
  | ok value => exact .pure value
  | error refusal => exact .throw refusal

theorem ofPlain (plain : Plain σ α) : Mirrors Eq (Computation.ofPlain plain) plain := by
  rintro state _ rfl
  exact ⟨_, rfl, rfl⟩

/-- On one and the same state, the results and the states afterwards are the same. -/
theorem run_eq {computation : Computation σ α} {plain : Plain σ α}
    (mirrors : Mirrors Eq computation plain) (state : σ) :
    Computation.run computation state = some (Plain.run plain state) := by
  rcases mirrors state state rfl with ⟨_, run_eq, rfl⟩
  exact run_eq

end Mirrors

end NearSigner.Checked
