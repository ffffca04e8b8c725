import NearSigner.Proofs.Borsh.Reading

/-!
# Reads one after another

Values are read from one buffer in any order, and reading goes on after a failure.
The cursor moves forward only and stays inside the buffer.  A read that succeeds
returns what the octets denote that it passes; and for one that fails it is stated
why it does and which octets it has passed by then.
-/

namespace NearSigner.Borsh

/-- What can be read at once. -/
inductive Read
  | u8
  | u32
  | u64
  | u128
  /-- Octets whose number is given. -/
  | fixed (count : Nat)
  /-- A block of octets. -/
  | block (n : Nat)
  /-- A byte string behind its length. -/
  | byteString
  /-- A text behind its length. -/
  | text
  /-- The tag in front of a value that may be missing. -/
  | optionTag
deriving DecidableEq, Repr

/-- What a read returns. -/
inductive Value
  | u8 (value : UInt8)
  | u32 (value : UInt32)
  | u64 (value : UInt64)
  | u128 (value : UInt128)
  | octets (octets : Bytes)
  | text (text : String)
  | flag (present : Bool)
deriving DecidableEq, Repr

namespace Read

/-- The reader that performs a read. -/
def reader : Read → Reader Value
  | u8 => do return .u8 (← Reader.u8)
  | u32 => do return .u32 (← Reader.u32)
  | u64 => do return .u64 (← Reader.u64)
  | u128 => do return .u128 (← Reader.u128)
  | fixed count => do return .octets (← Reader.take count)
  | block n => do return .octets (← Reader.block n).toBytes
  | byteString => do return .octets (← Reader.byteString)
  | text => do return .text (← Reader.text)
  | optionTag => do return .flag (← Reader.optionTag)

/-- Whether what is read stands behind its length. -/
def IsCounted (read : Read) : Prop :=
  read = byteString ∨ read = text

/-- The number of octets that have to be there before anything is passed. -/
def needed : Read → Nat
  | u8 | optionTag => 1
  | u32 | byteString | text => 4
  | u64 => 8
  | u128 => 16
  | fixed count | block count => count

/-- The value that octets denote for a read. -/
inductive Denotes : Read → Bytes → Value → Prop
  | u8 (octet : UInt8) : Denotes u8 [octet] (.u8 octet)
  | u32 {octets : Bytes} {value : UInt32} (length_eq : octets.length = 4)
      (value_eq : value.toNat = Bytes.toNatLE octets) : Denotes u32 octets (.u32 value)
  | u64 {octets : Bytes} {value : UInt64} (length_eq : octets.length = 8)
      (value_eq : value.toNat = Bytes.toNatLE octets) : Denotes u64 octets (.u64 value)
  | u128 {octets : Bytes} {value : UInt128} (length_eq : octets.length = 16)
      (value_eq : value.toNat = Bytes.toNatLE octets) : Denotes u128 octets (.u128 value)
  | fixed (octets : Bytes) : Denotes (fixed octets.length) octets (.octets octets)
  | block (octets : Bytes) : Denotes (block octets.length) octets (.octets octets)
  | byteString {length content : Bytes} (length_length : length.length = 4)
      (counted : content.length = Bytes.toNatLE length) :
      Denotes byteString (length ++ content) (.octets content)
  | text {length : Bytes} {value : String} (length_length : length.length = 4)
      (counted : value.utf8ByteSize = Bytes.toNatLE length) :
      Denotes text (length ++ Bytes.ofText value) (.text value)
  | absent : Denotes optionTag [0] (.flag false)
  | present : Denotes optionTag [1] (.flag true)

/-- Why a read fails before given octets, and how many of them it has passed by
then. -/
inductive Fails (rest : Bytes) : Read → Refusal → Nat → Prop
  | short {read : Read} (few : rest.length < read.needed) : Fails rest read .truncatedInput 0
  | overlong {read : Read} {length content : Bytes} (isCounted : read.IsCounted)
      (rest_eq : rest = length ++ content) (length_length : length.length = 4)
      (few : content.length < Bytes.toNatLE length) : Fails rest read .truncatedInput 4
  | noText {length content behind : Bytes} (rest_eq : rest = length ++ (content ++ behind))
      (length_length : length.length = 4) (counted : content.length = Bytes.toNatLE length)
      (noText : ∀ value, content ≠ Bytes.ofText value) :
      Fails rest text .invalidEncoding (4 + content.length)
  | unknownTag {tag : UInt8} {behind : Bytes} (rest_eq : rest = tag :: behind)
      (unknown : tag ≠ 0 ∧ tag ≠ 1) : Fails rest optionTag .invalidEncoding 1

theorem Fails.taken_le {rest : Bytes} {read : Read} {refusal : Refusal} {taken : Nat}
    (fails : Fails rest read refusal taken) : taken ≤ rest.length := by
  cases fails with
  | short few => exact Nat.zero_le _
  | overlong isCounted rest_eq length_length few =>
      rw [rest_eq, List.length_append, length_length]
      exact Nat.le_add_right _ _
  | noText rest_eq length_length counted noText =>
      rw [rest_eq, List.length_append, List.length_append, length_length, ← Nat.add_assoc]
      exact Nat.le_add_right _ _
  | unknownTag rest_eq unknown =>
      rw [rest_eq, List.length_cons]
      exact Nat.le_add_left _ _

end Read

/-! ## Reads that succeed -/

/-- Four octets are the encoding of the integer that they denote. -/
theorem u32_eq_iff {value : UInt32} {octets : Bytes} :
    u32 value = octets ↔ octets.length = 4 ∧ value.toNat = Bytes.toNatLE octets :=
  @Bytes.littleEndian_eq_iff 4 _ _ value.toNat_lt

/-- Eight octets are the encoding of the integer that they denote. -/
theorem u64_eq_iff {value : UInt64} {octets : Bytes} :
    u64 value = octets ↔ octets.length = 8 ∧ value.toNat = Bytes.toNatLE octets :=
  @Bytes.littleEndian_eq_iff 8 _ _ value.toNat_lt

/-- Sixteen octets are the encoding of the integer that they denote. -/
theorem u128_eq_iff {value : UInt128} {octets : Bytes} :
    u128 value = octets ↔ octets.length = 16 ∧ value.toNat = Bytes.toNatLE octets :=
  @Bytes.littleEndian_eq_iff 16 _ _ value.isLt

/-- Four octets are the encoding of the length that they denote. -/
theorem length_eq_iff {value : Nat} {octets : Bytes} :
    FitsWord value ∧ length value = octets ↔ octets.length = 4 ∧ value = Bytes.toNatLE octets := by
  constructor
  · rintro ⟨fits, encoded⟩
    rw [length, u32_eq_iff, UInt32.toNat_ofNat_of_lt' fits] at encoded
    exact encoded
  · rintro ⟨length_eq, value_eq⟩
    have below := Bytes.toNatLE_lt octets
    have fits : FitsWord value := by
      rwa [length_eq, ← value_eq] at below
    rw [length, u32_eq_iff, UInt32.toNat_ofNat_of_lt' fits]
    exact ⟨fits, length_eq, value_eq⟩

/-- An exact reader serves a read whose values are denoted by its encodings. -/
theorem Reader.Exact.serves {α : Type} {reader : Reader α} {Fits : α → Prop}
    {encode : α → Bytes} (exact : reader.Exact Fits encode) {make : α → Value} {read : Read}
    (denotes_iff : ∀ octets value, read.Denotes octets value ↔
      ∃ part, Fits part ∧ encode part = octets ∧ make part = value)
    {cursor next : Cursor} {value : Value} :
    (do return make (← reader) : Reader Value).runAt cursor = (.ok value, next) ↔
      ∃ octets, read.Denotes octets value ∧ cursor.Passes octets next := by
  simp only [exact.bind_iff, denotes_iff]
  constructor
  · rintro ⟨part, middle, ⟨fits, passes⟩, returned⟩
    rcases Reader.runAt_pure_eq_ok_iff.mp returned with ⟨rfl, rfl⟩
    exact ⟨_, ⟨part, fits, rfl, rfl⟩, passes⟩
  · rintro ⟨_, ⟨part, fits, rfl, rfl⟩, passes⟩
    exact ⟨part, next, ⟨fits, passes⟩, Reader.runAt_pure_eq_ok_iff.mpr ⟨rfl, rfl⟩⟩

namespace Read

/-- A read succeeds when it passes octets that denote a value, and returns that. -/
theorem runAt_eq_ok_iff {read : Read} {cursor next : Cursor} {value : Value} :
    read.reader.runAt cursor = (.ok value, next) ↔
      ∃ octets, read.Denotes octets value ∧ cursor.Passes octets next := by
  cases read with
  | u8 =>
      refine Reader.u8_exact.serves fun octets value => ⟨?_, ?_⟩
      · intro denotes
        cases denotes with
        | u8 octet => exact ⟨octet, trivial, rfl, rfl⟩
      · rintro ⟨octet, _, rfl, rfl⟩
        exact .u8 octet
  | u32 =>
      refine Reader.u32_exact.serves fun octets value => ⟨?_, ?_⟩
      · intro denotes
        cases denotes with
        | u32 length_eq value_eq =>
            exact ⟨_, trivial, u32_eq_iff.mpr ⟨length_eq, value_eq⟩, rfl⟩
      · rintro ⟨word, _, encoded, rfl⟩
        exact .u32 (u32_eq_iff.mp encoded).1 (u32_eq_iff.mp encoded).2
  | u64 =>
      refine Reader.u64_exact.serves fun octets value => ⟨?_, ?_⟩
      · intro denotes
        cases denotes with
        | u64 length_eq value_eq =>
            exact ⟨_, trivial, u64_eq_iff.mpr ⟨length_eq, value_eq⟩, rfl⟩
      · rintro ⟨word, _, encoded, rfl⟩
        exact .u64 (u64_eq_iff.mp encoded).1 (u64_eq_iff.mp encoded).2
  | u128 =>
      refine Reader.u128_exact.serves fun octets value => ⟨?_, ?_⟩
      · intro denotes
        cases denotes with
        | u128 length_eq value_eq =>
            exact ⟨_, trivial, u128_eq_iff.mpr ⟨length_eq, value_eq⟩, rfl⟩
      · rintro ⟨word, _, encoded, rfl⟩
        exact .u128 (u128_eq_iff.mp encoded).1 (u128_eq_iff.mp encoded).2
  | fixed count =>
      refine (Reader.take_exact count).serves fun octets value => ⟨?_, ?_⟩
      · intro denotes
        cases denotes with
        | fixed => exact ⟨octets, rfl, rfl, rfl⟩
      · rintro ⟨octets, rfl, rfl, rfl⟩
        exact .fixed octets
  | block n =>
      refine (Reader.block_exact n).serves fun octets value => ⟨?_, ?_⟩
      · intro denotes
        cases denotes with
        | block => exact ⟨⟨octets.toArray, rfl⟩, trivial, rfl, rfl⟩
      · rintro ⟨block, _, rfl, rfl⟩
        have denotes := Denotes.block block.toBytes
        rwa [Vector.length_toList] at denotes
  | byteString =>
      refine Reader.byteString_exact.serves fun octets value => ⟨?_, ?_⟩
      · intro denotes
        cases denotes with
        | byteString length_length counted =>
            obtain ⟨fits, rfl⟩ := length_eq_iff.mpr ⟨length_length, counted⟩
            exact ⟨_, fits, rfl, rfl⟩
      · rintro ⟨content, fits, rfl, rfl⟩
        obtain ⟨length_length, counted⟩ := length_eq_iff.mp ⟨fits, rfl⟩
        exact .byteString length_length counted
  | text =>
      refine Reader.text_exact.serves fun octets value => ⟨?_, ?_⟩
      · intro denotes
        cases denotes with
        | text length_length counted =>
            obtain ⟨fits, rfl⟩ := length_eq_iff.mpr ⟨length_length, counted⟩
            refine ⟨_, fits, ?_, rfl⟩
            rw [Borsh.text, Borsh.byteString, Bytes.length_ofText]
      · rintro ⟨content, fits, rfl, rfl⟩
        obtain ⟨length_length, counted⟩ := length_eq_iff.mp ⟨fits, rfl⟩
        rw [Borsh.text, Borsh.byteString, Bytes.length_ofText]
        exact .text length_length counted
  | optionTag =>
      refine Reader.optionTag_exact.serves fun octets value => ⟨?_, ?_⟩
      · intro denotes
        cases denotes with
        | absent => exact ⟨false, trivial, rfl, rfl⟩
        | present => exact ⟨true, trivial, rfl, rfl⟩
      · rintro ⟨present, _, rfl, rfl⟩
        cases present with
        | false => exact .absent
        | true => exact .present

end Read

/-! ## Reads that fail -/

theorem Cursor.advance_zero (cursor : Cursor) : cursor.advance 0 = cursor :=
  rfl

theorem Cursor.rest_advance {cursor : Cursor} {octets behind : Bytes}
    (rest_eq : cursor.rest = octets ++ behind) :
    (cursor.advance octets.length).rest = behind := by
  rw [advance, rest_eq, List.drop_left]

theorem Cursor.passes_advance {cursor : Cursor} {octets behind : Bytes}
    (rest_eq : cursor.rest = octets ++ behind) :
    cursor.Passes octets (cursor.advance octets.length) :=
  ⟨by rw [rest_advance rest_eq, rest_eq], rfl⟩

namespace Reader

variable {α β : Type} {first : Reader α} {second : α → Reader β} {cursor next : Cursor}

theorem runAt_bind_of_ok {value : α} (read : first.runAt cursor = (.ok value, next)) :
    (first >>= second).runAt cursor = (second value).runAt next := by
  rw [runAt_bind, read]

theorem runAt_bind_of_error {refusal : Refusal}
    (failed : first.runAt cursor = (.error refusal, next)) :
    (first >>= second).runAt cursor = (.error refusal, next) := by
  rw [runAt_bind, failed]

/-- Four octets are read as the length that they denote. -/
theorem exists_runAt_u32 {length behind : Bytes} (rest_eq : cursor.rest = length ++ behind)
    (length_length : length.length = 4) :
    ∃ word, word.toNat = Bytes.toNatLE length ∧
      u32.runAt cursor = (.ok word, cursor.advance 4) := by
  have bounded : Bytes.toNatLE length < 2 ^ 32 := by
    have below := Bytes.toNatLE_lt length
    rwa [length_length] at below
  have word_eq : (UInt32.ofNat (Bytes.toNatLE length)).toNat = Bytes.toNatLE length :=
    UInt32.toNat_ofNat_of_lt' bounded
  have passes := Cursor.passes_advance rest_eq
  rw [← u32_eq_iff.mpr ⟨length_length, word_eq⟩, length_u32] at passes
  exact ⟨_, word_eq, u32_exact.mpr ⟨trivial, passes⟩⟩

end Reader

namespace Read

/-- Every read starts with octets whose number is known beforehand. -/
theorem exists_reader_eq (read : Read) :
    ∃ finish, read.reader = Reader.take read.needed >>= finish := by
  cases read with
  | fixed count => exact ⟨_, rfl⟩
  | u8 | u32 | u64 | u128 | block n => exact ⟨_, bind_assoc _ _ _⟩
  | byteString | text =>
      simp only [reader, Reader.text, Reader.byteString, Reader.u32, bind_assoc]
      exact ⟨_, rfl⟩
  | optionTag =>
      simp only [reader, Reader.optionTag, Reader.u8, bind_assoc]
      exact ⟨_, rfl⟩

theorem IsCounted.exists_reader_eq {read : Read} (isCounted : read.IsCounted) :
    ∃ finish, read.reader = Reader.byteString >>= finish := by
  rcases isCounted with rfl | rfl
  · exact ⟨_, rfl⟩
  · exact ⟨_, bind_assoc _ _ _⟩

/-- A read fails for the causes stated, and then stands behind what it has passed. -/
theorem Fails.runAt_eq {read : Read} {cursor : Cursor} {refusal : Refusal} {taken : Nat}
    (fails : Fails cursor.rest read refusal taken) :
    read.reader.runAt cursor = (.error refusal, cursor.advance taken) := by
  cases fails with
  | short few =>
      rcases read.exists_reader_eq with ⟨finish, reader_eq⟩
      rw [reader_eq]
      exact Reader.runAt_bind_of_error (if_pos few)
  | @overlong _ length content isCounted rest_eq length_length few =>
      rcases isCounted.exists_reader_eq with ⟨finish, reader_eq⟩
      obtain ⟨word, word_eq, counted⟩ := Reader.exists_runAt_u32 rest_eq length_length
      have short : (cursor.advance 4).remaining < word.toNat := by
        rw [Cursor.remaining, ← length_length, Cursor.rest_advance rest_eq, word_eq]
        exact few
      have refused : Reader.byteString.runAt cursor = (.error .truncatedInput, cursor.advance 4) :=
        (Reader.runAt_bind_of_ok counted).trans (if_pos short)
      rw [reader_eq]
      exact Reader.runAt_bind_of_error refused
  | @noText length content behind rest_eq length_length counted noText =>
      obtain ⟨fits, rfl⟩ := length_eq_iff.mpr ⟨length_length, counted⟩
      have passes : cursor.Passes (Borsh.byteString content)
          (cursor.advance (4 + content.length)) := by
        rw [← length_byteString]
        exact Cursor.passes_advance (by rw [rest_eq, Borsh.byteString, List.append_assoc])
      have taken := Reader.byteString_exact.mpr ⟨fits, passes⟩
      have unread : Bytes.toText? content = none := by
        rw [Option.eq_none_iff_forall_ne_some]
        exact fun value same => noText value (Bytes.toText?_eq_some_iff.mp same)
      have refused : Reader.text.runAt cursor =
          (.error .invalidEncoding, cursor.advance (4 + content.length)) := by
        rw [Reader.text, Reader.runAt_bind_of_ok taken, unread]
        rfl
      exact Reader.runAt_bind_of_error refused
  | @unknownTag tag behind rest_eq unknown =>
      have passes : cursor.Passes [tag] (cursor.advance 1) := Cursor.passes_advance rest_eq
      have taken := Reader.u8_exact.mpr ⟨trivial, passes⟩
      have refused : Reader.optionTag.runAt cursor =
          (.error .invalidEncoding, cursor.advance 1) := by
        rw [Reader.optionTag, Reader.runAt_bind_of_ok taken]
        split
        · exact absurd rfl unknown.1
        · exact absurd rfl unknown.2
        · rfl
      exact Reader.runAt_bind_of_error refused

theorem exists_content_or_overlong {read : Read} (isCounted : read.IsCounted) {length : Bytes}
    (length_length : length.length = 4) (behind : Bytes) :
    (∃ content others, behind = content ++ others ∧ content.length = Bytes.toNatLE length) ∨
      Fails (length ++ behind) read .truncatedInput 4 := by
  rcases Nat.lt_or_ge behind.length (Bytes.toNatLE length) with few | enough
  · exact .inr (.overlong isCounted rfl length_length few)
  · exact .inl ⟨_, _, (List.take_append_drop _ _).symm, List.length_take_of_le enough⟩

/-- Before any octets a read passes some that denote a value, or it fails. -/
theorem exists_denotes_or_fails (read : Read) (rest : Bytes) :
    (∃ octets behind value, rest = octets ++ behind ∧ read.Denotes octets value) ∨
      ∃ refusal taken, Fails rest read refusal taken := by
  rcases Nat.lt_or_ge rest.length read.needed with few | enough
  · exact .inr ⟨_, _, .short few⟩
  obtain ⟨octets, behind, rfl, length_eq⟩ : ∃ octets behind,
      rest = octets ++ behind ∧ octets.length = read.needed :=
    ⟨_, _, (List.take_append_drop _ _).symm, List.length_take_of_le enough⟩
  have bounded : Bytes.toNatLE octets < 256 ^ read.needed := length_eq ▸ Bytes.toNatLE_lt octets
  cases read with
  | u8 =>
      rcases List.length_eq_one_iff.mp length_eq with ⟨octet, rfl⟩
      exact .inl ⟨_, _, _, rfl, .u8 octet⟩
  | u32 => exact .inl ⟨_, _, _, rfl, .u32 length_eq (UInt32.toNat_ofNat_of_lt' bounded)⟩
  | u64 => exact .inl ⟨_, _, _, rfl, .u64 length_eq (UInt64.toNat_ofNat_of_lt' bounded)⟩
  | u128 =>
      have value_eq : (BitVec.ofNat 128 (Bytes.toNatLE octets)).toNat = Bytes.toNatLE octets :=
        (BitVec.toNat_ofNat _ _).trans (Nat.mod_eq_of_lt bounded)
      exact .inl ⟨_, _, _, rfl, .u128 length_eq value_eq⟩
  | fixed count =>
      obtain rfl : octets.length = count := length_eq
      exact .inl ⟨_, _, _, rfl, .fixed octets⟩
  | block n =>
      obtain rfl : octets.length = n := length_eq
      exact .inl ⟨_, _, _, rfl, .block octets⟩
  | byteString =>
      rcases exists_content_or_overlong (.inl rfl) length_eq behind with found | fails
      · rcases found with ⟨content, others, rfl, counted⟩
        exact .inl ⟨_, _, _, (List.append_assoc _ _ _).symm, .byteString length_eq counted⟩
      · exact .inr ⟨_, _, fails⟩
  | text =>
      rcases exists_content_or_overlong (.inr rfl) length_eq behind with found | fails
      · rcases found with ⟨content, others, rfl, counted⟩
        by_cases readable : ∃ value, content = Bytes.ofText value
        · rcases readable with ⟨value, rfl⟩
          rw [Bytes.length_ofText] at counted
          exact .inl ⟨_, _, _, (List.append_assoc _ _ _).symm, .text length_eq counted⟩
        · exact .inr ⟨_, _, .noText rfl length_eq counted (not_exists.mp readable)⟩
      · exact .inr ⟨_, _, fails⟩
  | optionTag =>
      rcases List.length_eq_one_iff.mp length_eq with ⟨tag, rfl⟩
      by_cases absent : tag = 0
      · subst absent
        exact .inl ⟨_, _, _, rfl, .absent⟩
      · by_cases present : tag = 1
        · subst present
          exact .inl ⟨_, _, _, rfl, .present⟩
        · exact .inr ⟨_, _, .unknownTag rfl ⟨absent, present⟩⟩

/-- A read fails for the causes stated and for no other. -/
theorem runAt_eq_error_iff {read : Read} {cursor next : Cursor} {refusal : Refusal} :
    read.reader.runAt cursor = (.error refusal, next) ↔
      ∃ taken, Fails cursor.rest read refusal taken ∧ next = cursor.advance taken := by
  constructor
  · intro failed
    -- What is before the cursor lets the read succeed, or is a cause to fail at once.
    rcases read.exists_denotes_or_fails cursor.rest with found | ⟨cause, taken, fails⟩
    · rcases found with ⟨octets, behind, value, rest_eq, denotes⟩
      have succeeded := runAt_eq_ok_iff.mpr ⟨octets, denotes, Cursor.passes_advance rest_eq⟩
      rw [succeeded] at failed
      cases failed
    · rw [fails.runAt_eq] at failed
      cases failed
      exact ⟨taken, fails, rfl⟩
  · rintro ⟨taken, fails, rfl⟩
    exact fails.runAt_eq

/-- A read fails on the spot exactly when there are too few octets to start with. -/
theorem runAt_eq_short_iff {read : Read} {cursor : Cursor} :
    read.reader.runAt cursor = (.error .truncatedInput, cursor) ↔
      cursor.remaining < read.needed := by
  rw [runAt_eq_error_iff]
  constructor
  · rintro ⟨taken, fails, same⟩
    cases fails with
    | short few => exact few
    | overlong isCounted rest_eq length_length few =>
        -- The refusal is the same, but here the length has been passed.
        have position_eq : cursor.position = cursor.position + 4 := congrArg Cursor.position same
        omega
  · intro few
    exact ⟨0, .short few, cursor.advance_zero.symm⟩

end Read

/-! ## Places of a buffer -/

namespace Cursor

/-- The cursor at a place of a buffer. -/
def placed (buffer : Bytes) (position : Nat) : Cursor where
  position := position
  rest := buffer.drop position

variable {buffer octets : Bytes} {position : Nat} {next : Cursor}

theorem advance_placed (buffer : Bytes) (position count : Nat) :
    (placed buffer position).advance count = placed buffer (position + count) := by
  rw [advance, placed, List.drop_drop]
  rfl

/-- What lies between two places of a buffer is a part of it. -/
theorem placed_passes_iff (inside : position ≤ buffer.length) :
    (placed buffer position).Passes octets next ↔
      ∃ reached, position ≤ reached ∧ reached ≤ buffer.length ∧
        octets = buffer.extract position reached ∧ next = placed buffer reached := by
  constructor
  · intro passes
    have rest_eq : buffer.drop position = octets ++ next.rest := passes.rest_eq
    have length_eq := congrArg List.length rest_eq
    rw [List.length_drop, List.length_append] at length_eq
    refine ⟨position + octets.length, Nat.le_add_right _ _, by omega, ?_, ?_⟩
    · rw [List.extract_eq_take_drop, Nat.add_sub_cancel_left, rest_eq, List.take_left]
    · rw [passes.eq_advance, advance_placed]
  · rintro ⟨reached, ordered, within, rfl, rfl⟩
    have behind : buffer.drop reached = (buffer.drop position).drop (reached - position) := by
      rw [List.drop_drop, Nat.add_sub_cancel' ordered]
    have length_eq : (buffer.extract position reached).length = reached - position := by
      rw [List.extract_eq_take_drop, List.length_take_of_le]
      rw [List.length_drop]
      omega
    constructor
    · rw [placed, placed, behind, List.extract_eq_take_drop, List.take_append_drop]
    · rw [length_eq, placed, placed, Nat.add_sub_cancel' ordered]

/-- The cursor behind all reads of a list, whatever becomes of each. -/
def run (cursor : Cursor) (reads : List Read) : Cursor :=
  reads.foldl (fun cursor read => (read.reader.runAt cursor).2) cursor

@[simp]
theorem run_nil (cursor : Cursor) : cursor.run [] = cursor :=
  rfl

@[simp]
theorem run_cons (cursor : Cursor) (read : Read) (later : List Read) :
    cursor.run (read :: later) = (read.reader.runAt cursor).2.run later :=
  rfl

@[simp]
theorem run_append (cursor : Cursor) (earlier later : List Read) :
    cursor.run (earlier ++ later) = (cursor.run earlier).run later := by
  rw [run, List.foldl_append]
  rfl

/-- A read moves from one place of a buffer to a place that is not in front of it. -/
theorem exists_runAt_placed (inside : position ≤ buffer.length) (read : Read) :
    ∃ reached, position ≤ reached ∧ reached ≤ buffer.length ∧
      (read.reader.runAt (placed buffer position)).2 = placed buffer reached := by
  rcases outcome : read.reader.runAt (placed buffer position) with ⟨refusal | value, next⟩
  · rcases Read.runAt_eq_error_iff.mp outcome with ⟨taken, fails, rfl⟩
    have taken_le := fails.taken_le
    rw [placed, List.length_drop] at taken_le
    exact ⟨position + taken, Nat.le_add_right _ _, by omega, advance_placed buffer position taken⟩
  · rcases Read.runAt_eq_ok_iff.mp outcome with ⟨octets, _, passes⟩
    rcases (placed_passes_iff inside).mp passes with ⟨reached, ordered, within, _, next_eq⟩
    exact ⟨reached, ordered, within, next_eq⟩

/-- So do all reads of a list together. -/
theorem exists_run_placed (inside : position ≤ buffer.length) (reads : List Read) :
    ∃ reached, position ≤ reached ∧ reached ≤ buffer.length ∧
      (placed buffer position).run reads = placed buffer reached := by
  -- A failure leaves the cursor at a place of the buffer as well, so later reads start there.
  induction reads generalizing position with
  | nil => exact ⟨position, Nat.le_refl _, inside, rfl⟩
  | cons read later ih =>
      rcases exists_runAt_placed inside read with ⟨middle, forth, within, middle_eq⟩
      rcases ih within with ⟨reached, further, inside, reached_eq⟩
      exact ⟨reached, Nat.le_trans forth further, inside, by rw [run_cons, middle_eq, reached_eq]⟩

end Cursor

/-- However a buffer is read, and whichever reads fail, the cursor moves forward only and
stands at a place of the buffer, with the rest of it still to be read.  From there a read
succeeds exactly when it passes octets of the buffer that denote a value, and returns
that value; it fails exactly for the causes stated, behind as many octets as belong to
each, and on the spot exactly when fewer octets remain than it needs. -/
theorem reads_move_forward_inside_their_buffer (buffer : Bytes) (earlier : List Read) :
    let cursor := (Cursor.start buffer).run earlier
    let position := cursor.position
    cursor = .placed buffer position ∧ position ≤ buffer.length ∧
    cursor.remaining = buffer.length - position ∧
    (∀ later, position ≤ ((Cursor.start buffer).run (earlier ++ later)).position) ∧
    (∀ (read : Read) (value : Value) (next : Cursor),
      read.reader.runAt cursor = (.ok value, next) ↔
        ∃ reached, position ≤ reached ∧ reached ≤ buffer.length ∧
          next = .placed buffer reached ∧
          read.Denotes (buffer.extract position reached) value) ∧
    (∀ (read : Read) (refusal : Refusal) (next : Cursor),
      read.reader.runAt cursor = (.error refusal, next) ↔
        ∃ taken, Read.Fails (buffer.drop position) read refusal taken ∧
          next = .placed buffer (position + taken)) ∧
    ∀ read : Read, read.reader.runAt cursor = (.error .truncatedInput, cursor) ↔
      buffer.length - position < read.needed := by
  intro cursor position
  obtain ⟨here, _, inside, run_eq⟩ : ∃ here, 0 ≤ here ∧ here ≤ buffer.length ∧
      (Cursor.start buffer).run earlier = .placed buffer here :=
    Cursor.exists_run_placed (Nat.zero_le _) earlier
  have cursor_eq : cursor = .placed buffer here := run_eq
  have position_eq : position = here := congrArg Cursor.position cursor_eq
  clear_value cursor position
  subst position_eq cursor_eq
  have remaining_eq : (Cursor.placed buffer position).remaining = buffer.length - position :=
    List.length_drop
  refine ⟨rfl, inside, remaining_eq, ?_, ?_, ?_, ?_⟩
  · intro later
    rcases Cursor.exists_run_placed inside later with ⟨reached, ordered, _, later_eq⟩
    rw [Cursor.run_append, run_eq, later_eq]
    exact ordered
  · intro read value next
    rw [Read.runAt_eq_ok_iff]
    constructor
    · rintro ⟨octets, denotes, passes⟩
      rcases (Cursor.placed_passes_iff inside).mp passes with ⟨reached, ordered, within, rfl, rfl⟩
      exact ⟨reached, ordered, within, rfl, denotes⟩
    · rintro ⟨reached, ordered, within, rfl, denotes⟩
      exact ⟨_, denotes, (Cursor.placed_passes_iff inside).mpr ⟨reached, ordered, within, rfl, rfl⟩⟩
  · intro read refusal next
    simp only [Read.runAt_eq_error_iff, Cursor.advance_placed]
    rfl
  · intro read
    rw [Read.runAt_eq_short_iff, remaining_eq]

/-- Reading goes on behind a length for which there are too few octets, and stays where a
word is too long. -/
example : ((Cursor.start [255, 255, 255, 255, 97, 2]).run
    [.byteString, .u32, .u8, .optionTag, .u8]).position = 6 := by
  decide

end NearSigner.Borsh
