import NearSigner.Borsh.Reader
import NearSigner.Bytes.Words.Range

/-!
# Exact readers

A reader is exact for an encoding when it succeeds precisely on the octets that
the encoding writes, returns what was written, and stops behind them.  Whatever
follows is neither looked at nor needed.  Exactness is stated as an equivalence
and is kept by running one reader after another, so the readers of compound
values inherit it from those of their parts.
-/

namespace NearSigner.Borsh

/-- A length that a word of 32 bits can express. -/
def FitsWord (length : Nat) : Prop :=
  length < 2 ^ 32

instance (length : Nat) : Decidable (FitsWord length) :=
  inferInstanceAs (Decidable (length < 2 ^ 32))

/-- A word that has a word behind it does not wrap around. -/
theorem FitsWord.toNat_add_one {word : UInt32} (fits : FitsWord (word.toNat + 1)) :
    (word + 1).toNat = word.toNat + 1 := by
  rw [UInt32.toNat_add]
  exact Nat.mod_eq_of_lt fits

/-- A text whose size can be written in front of it. -/
def TextFits (text : String) : Prop :=
  FitsWord text.utf8ByteSize

instance (text : String) : Decidable (TextFits text) :=
  inferInstanceAs (Decidable (FitsWord text.utf8ByteSize))

namespace Cursor

/-- The octets between one place of a sequence and a later one. -/
structure Passes (cursor : Cursor) (octets : Bytes) (next : Cursor) : Prop where
  rest_eq : cursor.rest = octets ++ next.rest
  position_eq : next.position = cursor.position + octets.length

/-- The place behind given octets is determined. -/
theorem passes_iff_of_rest_eq {cursor next : Cursor} {octets rest : Bytes}
    (rest_eq : cursor.rest = octets ++ rest) :
    cursor.Passes octets next ↔
      next = { position := cursor.position + octets.length, rest } := by
  constructor
  · rintro ⟨passed, position_eq⟩
    rcases next with ⟨position, remaining⟩
    have remaining_eq : remaining = rest :=
      List.append_cancel_left (passed.symm.trans rest_eq)
    subst remaining_eq
    simpa using position_eq
  · rintro rfl
    exact ⟨rest_eq, rfl⟩

/-- The place behind given octets is as many octets further on. -/
theorem Passes.eq_advance {cursor next : Cursor} {octets : Bytes}
    (passes : cursor.Passes octets next) : next = cursor.advance octets.length := by
  rw [(passes_iff_of_rest_eq passes.rest_eq).mp passes, advance, passes.rest_eq,
    List.drop_left]

/-- The octets between two places are those that the first one has more. -/
theorem Passes.remaining_eq {cursor next : Cursor} {octets : Bytes}
    (passes : cursor.Passes octets next) :
    cursor.remaining = octets.length + next.remaining := by
  rw [remaining, passes.rest_eq, List.length_append]
  rfl

@[simp]
theorem passes_nil_iff {cursor next : Cursor} :
    cursor.Passes [] next ↔ next = cursor := by
  rw [passes_iff_of_rest_eq (List.nil_append cursor.rest).symm]
  simp

/-- Passing one sequence after another is passing their concatenation. -/
theorem passes_append_iff {cursor next : Cursor} {first second : Bytes} :
    cursor.Passes (first ++ second) next ↔
      ∃ middle, cursor.Passes first middle ∧ middle.Passes second next := by
  constructor
  · rintro ⟨rest_eq, position_eq⟩
    have behind : next.position = cursor.position + first.length + second.length := by
      simp [position_eq, Nat.add_assoc]
    exact ⟨{ position := cursor.position + first.length, rest := second ++ next.rest },
      ⟨by simp [rest_eq], rfl⟩, ⟨rfl, behind⟩⟩
  · rintro ⟨middle, ⟨firstRest, firstPosition⟩, ⟨secondRest, secondPosition⟩⟩
    exact ⟨by rw [firstRest, secondRest, List.append_assoc],
      by rw [secondPosition, firstPosition, List.length_append, Nat.add_assoc]⟩

theorem passes_cons_iff {cursor next : Cursor} {octet : UInt8} {octets : Bytes} :
    cursor.Passes (octet :: octets) next ↔
      ∃ middle, cursor.Passes [octet] middle ∧ middle.Passes octets next :=
  @passes_append_iff cursor next [octet] octets

/-- From the start to the end of a sequence lies the whole of it. -/
theorem passes_start_atEnd_iff {bytes octets : Bytes} {next : Cursor} :
    (start bytes).Passes octets next ∧ next.atEnd = true ↔
      bytes = octets ∧ next = { position := octets.length, rest := [] } := by
  constructor
  · rintro ⟨⟨rest_eq, position_eq⟩, ended⟩
    rcases next with ⟨position, rest⟩
    have rest_nil : rest = [] := by
      simpa [atEnd, remaining] using ended
    subst rest_nil
    exact ⟨by simpa [start] using rest_eq, by simpa [start] using position_eq⟩
  · rintro ⟨rfl, rfl⟩
    exact ⟨⟨by simp [start], by simp [start]⟩, rfl⟩

end Cursor

namespace Reader

variable {α β : Type}

/-- The reader succeeds exactly on the encodings of the values that fit, and
returns what was encoded. -/
def Exact (reader : Reader α) (Fits : α → Prop) (encode : α → Bytes) : Prop :=
  ∀ ⦃cursor next : Cursor⦄ ⦃value : α⦄,
    reader.runAt cursor = (.ok value, next) ↔
      Fits value ∧ cursor.Passes (encode value) next

/-- The reader succeeds exactly on the encodings of the values that fit, and
returns them in the form in which they are held. -/
def ExactThrough (reader : Reader α) (view : β → α) (Fits : β → Prop)
    (encode : β → Bytes) : Prop :=
  ∀ ⦃cursor next : Cursor⦄ ⦃value : α⦄,
    reader.runAt cursor = (.ok value, next) ↔
      ∃ source, Fits source ∧ view source = value ∧ cursor.Passes (encode source) next

/-- One reader after another succeeds when both do. -/
theorem runAt_bind_eq_ok_iff {first : Reader α} {second : α → Reader β}
    {cursor next : Cursor} {value : β} :
    (first >>= second).runAt cursor = (.ok value, next) ↔
      ∃ part middle, first.runAt cursor = (.ok part, middle) ∧
        (second part).runAt middle = (.ok value, next) := by
  rw [runAt_bind]
  rcases first.runAt cursor with ⟨result, middle⟩
  cases result with
  | error refusal => simp
  | ok part =>
      constructor
      · intro succeeded
        exact ⟨part, middle, rfl, succeeded⟩
      · rintro ⟨_, _, ⟨rfl, rfl⟩, succeeded⟩
        exact succeeded

/-- Behind an exact reader, reading goes on after the encoding of a value. -/
theorem Exact.bind_iff {first : Reader α} {Fits : α → Prop} {encode : α → Bytes}
    (exact : first.Exact Fits encode) {second : α → Reader β} {cursor next : Cursor}
    {value : β} :
    (first >>= second).runAt cursor = (.ok value, next) ↔
      ∃ part middle, (Fits part ∧ cursor.Passes (encode part) middle) ∧
        (second part).runAt middle = (.ok value, next) := by
  rw [runAt_bind_eq_ok_iff]
  exact exists_congr fun part => exists_congr fun middle =>
    and_congr_left' (@exact cursor middle part)

/-- An exact reader returns what was written in the form in which it is held. -/
theorem Exact.through {reader : Reader α} {Fits : α → Prop} {encode : α → Bytes}
    (exact : reader.Exact Fits encode) : reader.ExactThrough id Fits encode := by
  intro cursor next value
  rw [exact]
  constructor
  · rintro ⟨fits, passes⟩
    exact ⟨value, fits, rfl, passes⟩
  · rintro ⟨_, fits, rfl, passes⟩
    exact ⟨fits, passes⟩

theorem ExactThrough.bind_iff {γ : Type} {first : Reader α} {view : γ → α}
    {Fits : γ → Prop} {encode : γ → Bytes} (exact : first.ExactThrough view Fits encode)
    {second : α → Reader β} {cursor next : Cursor} {value : β} :
    (first >>= second).runAt cursor = (.ok value, next) ↔
      ∃ source middle, (Fits source ∧ cursor.Passes (encode source) middle) ∧
        (second (view source)).runAt middle = (.ok value, next) := by
  rw [runAt_bind_eq_ok_iff]
  constructor
  · rintro ⟨_, middle, read, succeeded⟩
    rcases exact.mp read with ⟨source, fits, rfl, passes⟩
    exact ⟨source, middle, ⟨fits, passes⟩, succeeded⟩
  · rintro ⟨source, middle, ⟨fits, passes⟩, succeeded⟩
    exact ⟨view source, middle, exact.mpr ⟨source, fits, rfl, passes⟩, succeeded⟩

@[simp]
theorem runAt_pure_eq_ok_iff {cursor next : Cursor} {value result : α} :
    (pure value : Reader α).runAt cursor = (.ok result, next) ↔
      value = result ∧ next = cursor := by
  simp [eq_comm]

@[simp]
theorem runAt_get (cursor : Cursor) :
    (get : Reader Cursor).runAt cursor = (.ok cursor, cursor) :=
  rfl

/-- An exact reader fails where no value that fits is encoded. -/
theorem ExactThrough.fails_iff {reader : Reader α} {view : β → α} {Fits : β → Prop}
    {encode : β → Bytes} (exact : reader.ExactThrough view Fits encode) {cursor : Cursor} :
    (∃ refusal, (reader.runAt cursor).1 = .error refusal) ↔
      ∀ source, Fits source → ¬encode source <+: cursor.rest := by
  constructor
  · rintro ⟨refusal, failed⟩ source fits ⟨rest, rest_eq⟩
    have passes := (Cursor.passes_iff_of_rest_eq rest_eq.symm).mpr rfl
    have succeeded := exact.mpr ⟨source, fits, rfl, passes⟩
    rw [succeeded] at failed
    cases failed
  · intro nothing
    rcases ran : reader.runAt cursor with ⟨refusal | value, next⟩
    · exact ⟨refusal, rfl⟩
    · rcases exact.mp ran with ⟨source, fits, _, passes⟩
      exact absurd ⟨next.rest, passes.rest_eq.symm⟩ (nothing source fits)

/-! ## Octets and integers -/

/-- Octets are taken exactly when there are enough of them. -/
theorem take_exact (count : Nat) :
    (take count).Exact (fun octets => octets.length = count) id := by
  intro cursor next octets
  rw [runAt_take]
  by_cases short : cursor.remaining < count
  · simp only [short, if_true, Prod.mk.injEq, reduceCtorEq, false_and, false_iff]
    rintro ⟨length_eq, rest_eq, _⟩
    have := congrArg List.length rest_eq
    simp [Cursor.remaining] at short this
    omega
  · have enough : count ≤ cursor.rest.length := by
      simpa [Cursor.remaining] using short
    simp only [short, if_false, Prod.mk.injEq, Except.ok.injEq]
    constructor
    · rintro ⟨rfl, rfl⟩
      exact ⟨by simp [enough], by simp [Cursor.advance], by simp [Cursor.advance, enough]⟩
    · rintro ⟨length_eq, passes⟩
      have taken : cursor.rest.take count = octets := by
        rw [passes.rest_eq, ← length_eq]
        simp
      have split : cursor.rest = octets ++ cursor.rest.drop count := by
        rw [← taken, List.take_append_drop]
      constructor
      · exact taken
      · rw [(Cursor.passes_iff_of_rest_eq split).mp passes, length_eq]
        rfl

/-- A block is read from its octets. -/
theorem block_exact (n : Nat) : (block n).Exact (fun _ => True) Block.toBytes := by
  intro cursor next value
  rw [block, (take_exact n).bind_iff, true_and]
  constructor
  · rintro ⟨octets, middle, ⟨_, passes⟩, recovered⟩
    split at recovered
    · rename_i found same
      rcases runAt_pure_eq_ok_iff.mp recovered with ⟨rfl, rfl⟩
      rwa [Block.ofBytes?_eq_some_iff.mp same] at passes
    · simp at recovered
  · intro passes
    have recovered : Block.ofBytes? n value.toBytes = some value := Block.ofBytes?_toBytes value
    exact ⟨value.toBytes, next, ⟨by simp, passes⟩, by simp [recovered]⟩

/-- An octet is read from itself. -/
theorem u8_exact : u8.Exact (fun _ => True) fun octet => [octet] := by
  intro cursor next value
  rw [u8, (take_exact 1).bind_iff, true_and]
  constructor
  · rintro ⟨octets, middle, ⟨length_eq, passes⟩, returned⟩
    rcases List.length_eq_one_iff.mp length_eq with ⟨octet, rfl⟩
    rcases runAt_pure_eq_ok_iff.mp returned with ⟨rfl, rfl⟩
    exact passes
  · intro passes
    exact ⟨[value], next, ⟨rfl, passes⟩, by simp⟩

/-- Words of a fixed width are read from their written forms, whatever type
represents their values. -/
theorem word_exact {width : Nat} {ofNat : Nat → α} {toNat : α → Nat}
    (toNat_ofNat : ∀ number, toNat (ofNat number) = number % 256 ^ width)
    (toNat_lt : ∀ value, toNat value < 256 ^ width)
    (toNat_injective : ∀ {first second}, toNat first = toNat second → first = second) :
    Exact (do return ofNat (Bytes.toNatLE (← take width))) (fun _ => True)
      fun value => Bytes.littleEndian width (toNat value) := by
  intro cursor next value
  rw [(take_exact width).bind_iff, true_and]
  constructor
  · rintro ⟨octets, middle, ⟨length_eq, passes⟩, returned⟩
    rcases runAt_pure_eq_ok_iff.mp returned with ⟨rfl, rfl⟩
    have bounded : Bytes.toNatLE octets < 256 ^ width := length_eq ▸ Bytes.toNatLE_lt octets
    change cursor.Passes (Bytes.littleEndian width (toNat (ofNat _))) next
    rw [toNat_ofNat, Nat.mod_eq_of_lt bounded, ← length_eq, Bytes.littleEndian_toNatLE]
    exact passes
  · intro passes
    have recovered :
        ofNat (Bytes.toNatLE (Bytes.littleEndian width (toNat value))) = value := by
      apply toNat_injective
      rw [Bytes.toNatLE_littleEndian, Nat.mod_eq_of_lt (toNat_lt value), toNat_ofNat,
        Nat.mod_eq_of_lt (toNat_lt value)]
    exact ⟨_, next, ⟨by simp, passes⟩, runAt_pure_eq_ok_iff.mpr ⟨recovered, rfl⟩⟩

/-- An integer of 32 bits is read from its encoding. -/
theorem u32_exact : u32.Exact (fun _ => True) Borsh.u32 :=
  word_exact (fun _ => UInt32.toNat_ofNat') UInt32.toNat_lt UInt32.toNat_inj.mp

/-- An integer of 64 bits is read from its encoding. -/
theorem u64_exact : u64.Exact (fun _ => True) Borsh.u64 :=
  word_exact (fun _ => UInt64.toNat_ofNat') UInt64.toNat_lt UInt64.toNat_inj.mp

/-- An integer of 128 bits is read from its encoding. -/
theorem u128_exact : u128.Exact (fun _ => True) Borsh.u128 :=
  word_exact (fun number => BitVec.toNat_ofNat number 128) BitVec.isLt BitVec.eq_of_toNat_eq

/-! ## Values behind their length or their tag -/

/-- A byte string is read from its encoding when its length can be written. -/
theorem byteString_exact :
    byteString.Exact (fun bytes => FitsWord bytes.length) Borsh.byteString := by
  intro cursor next bytes
  rw [byteString, u32_exact.bind_iff, Borsh.byteString, Cursor.passes_append_iff]
  constructor
  · rintro ⟨length, middle, ⟨_, lengthPasses⟩, taken⟩
    rcases (take_exact _).mp taken with ⟨length_eq, passes⟩
    have fits : FitsWord bytes.length := by
      rw [FitsWord, length_eq]
      exact length.toNat_lt
    have encodedPasses : cursor.Passes (Borsh.length bytes.length) middle := by
      rwa [Borsh.length, length_eq, UInt32.ofNat_toNat]
    exact ⟨fits, middle, encodedPasses, passes⟩
  · rintro ⟨fits, middle, lengthPasses, passes⟩
    have length_eq : bytes.length = (UInt32.ofNat bytes.length).toNat :=
      (UInt32.toNat_ofNat_of_lt' fits).symm
    exact ⟨_, middle, ⟨trivial, lengthPasses⟩, (take_exact _).mpr ⟨length_eq, passes⟩⟩

/-- A text is read from its encoding when its size can be written. -/
theorem text_exact : text.Exact TextFits Borsh.text := by
  intro cursor next value
  rw [text, byteString_exact.bind_iff, TextFits, ← Bytes.length_ofText]
  constructor
  · rintro ⟨bytes, middle, read, recovered⟩
    split at recovered
    · rename_i found same
      rcases runAt_pure_eq_ok_iff.mp recovered with ⟨rfl, rfl⟩
      rwa [Bytes.toText?_eq_some_iff.mp same] at read
    · simp at recovered
  · intro passes
    have recovered : Bytes.toText? (Bytes.ofText value) = some value := Bytes.toText?_ofText value
    exact ⟨Bytes.ofText value, next, passes, by simp [recovered]⟩

/-- The tag in front of a value that may be missing says whether it is there. -/
theorem optionTag_exact :
    optionTag.Exact (fun _ => True) fun present => [if present then 1 else 0] := by
  intro cursor next present
  rw [optionTag, u8_exact.bind_iff, true_and]
  constructor
  · rintro ⟨tag, middle, ⟨_, passes⟩, decided⟩
    split at decided <;> simp at decided
    all_goals
      obtain ⟨rfl, rfl⟩ := decided
      exact passes
  · intro passes
    refine ⟨_, next, ⟨trivial, passes⟩, ?_⟩
    cases present <;> simp

/-- A value that may be missing is read from its encoding when values that are
there are. -/
theorem option_exact {reader : Reader α} {Fits : α → Prop} {encode : α → Bytes}
    (exact : reader.Exact Fits encode) :
    (option reader).Exact (fun value? => ∀ value ∈ value?, Fits value)
      (Borsh.option encode) := by
  intro cursor next value?
  rw [option, optionTag_exact.bind_iff]
  constructor
  · rintro ⟨present, middle, ⟨_, tagPasses⟩, read⟩
    cases present with
    | false =>
        rcases runAt_pure_eq_ok_iff.mp read with ⟨rfl, rfl⟩
        exact ⟨by simp, tagPasses⟩
    | true =>
        rcases exact.bind_iff.mp read with ⟨value, last, ⟨fits, passes⟩, returned⟩
        rcases runAt_pure_eq_ok_iff.mp returned with ⟨rfl, rfl⟩
        exact ⟨by simpa using fits, Cursor.passes_cons_iff.mpr ⟨middle, tagPasses, passes⟩⟩
  · rintro ⟨fits, passes⟩
    cases value? with
    | none => exact ⟨false, next, ⟨trivial, passes⟩, by simp⟩
    | some value =>
        rcases Cursor.passes_cons_iff.mp passes with ⟨middle, tagPasses, valuePasses⟩
        exact ⟨true, middle, ⟨trivial, tagPasses⟩,
          exact.bind_iff.mpr ⟨value, next, ⟨fits value rfl, valuePasses⟩, by simp⟩⟩

/-- As many values as are asked for are read from their encodings one after
another. -/
theorem repeated_exact {reader : Reader α} {Fits : α → Prop} {encode : α → Bytes}
    (exact : reader.Exact Fits encode) (count : Nat) :
    (repeated reader count).Exact
      (fun values => values.length = count ∧ ∀ value ∈ values, Fits value)
      (List.flatMap encode) := by
  induction count with
  | zero =>
      intro cursor next values
      rw [repeated, runAt_pure_eq_ok_iff]
      constructor
      · rintro ⟨rfl, rfl⟩
        simp
      · rintro ⟨⟨length_eq, _⟩, passes⟩
        obtain rfl := List.length_eq_zero_iff.mp length_eq
        exact ⟨rfl, Cursor.passes_nil_iff.mp passes⟩
  | succ count ih =>
      intro cursor next values
      rw [repeated, exact.bind_iff]
      constructor
      · rintro ⟨first, middle, ⟨firstFits, firstPasses⟩, read⟩
        obtain ⟨others, last, ⟨⟨length_eq, othersFit⟩, othersPass⟩, returned⟩ :=
          ih.bind_iff.mp read
        rcases runAt_pure_eq_ok_iff.mp returned with ⟨rfl, rfl⟩
        constructor
        · exact ⟨by simp [length_eq], List.forall_mem_cons.mpr ⟨firstFits, othersFit⟩⟩
        · exact Cursor.passes_append_iff.mpr ⟨middle, firstPasses, othersPass⟩
      · rintro ⟨⟨length_eq, fit⟩, passes⟩
        rcases List.exists_cons_of_length_eq_add_one length_eq with ⟨first, others, rfl⟩
        rcases List.forall_mem_cons.mp fit with ⟨firstFits, othersFit⟩
        rcases Cursor.passes_append_iff.mp passes with ⟨middle, firstPasses, othersPass⟩
        refine ⟨first, middle, ⟨firstFits, firstPasses⟩, ih.bind_iff.mpr ?_⟩
        exact ⟨others, next, ⟨⟨by simpa using length_eq, othersFit⟩, othersPass⟩, by simp⟩

end Reader

end NearSigner.Borsh
