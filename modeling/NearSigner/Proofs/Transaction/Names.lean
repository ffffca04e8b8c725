import NearSigner.Proofs.Borsh.Composition
import NearSigner.Proofs.Borsh.Reading
import NearSigner.Transaction.MethodNames

/-!
# Method names in encoded form

The names of a list are checked in one pass and read again in another, from the
octets that the first pass went over.  Both passes see the same names, because
a name is read from its encoding whatever follows it.
-/

namespace NearSigner.MethodNames

open Borsh

/-- A list of names whose lengths can all be written. -/
structure NamesFit (names : List String) : Prop where
  count : FitsWord names.length
  each : ∀ name ∈ names, TextFits name

instance (names : List String) : Decidable (NamesFit names) :=
  decidable_of_iff (FitsWord names.length ∧ ∀ name ∈ names, TextFits name)
    ⟨fun ⟨count, each⟩ => ⟨count, each⟩, fun fit => ⟨fit.count, fit.each⟩⟩

/-- Names are read again from wherever their encodings start. -/
theorem namesFrom_flatMap_text {names : List String} {cursor next : Cursor}
    (fit : ∀ name ∈ names, TextFits name)
    (passes : cursor.Passes (names.flatMap Borsh.text) next) :
    namesFrom names.length cursor = names := by
  induction names generalizing cursor with
  | nil => rfl
  | cons name others ih =>
      rcases List.forall_mem_cons.mp fit with ⟨nameFits, othersFit⟩
      rcases Cursor.passes_append_iff.mp passes with ⟨middle, namePasses, othersPass⟩
      have read : Reader.text.runAt cursor = (.ok name, middle) :=
        Reader.text_exact.mpr ⟨nameFits, namePasses⟩
      simp only [List.length_cons, namesFrom, read, ih othersFit othersPass]

/-- The encoded form of a list holds the names of the list. -/
theorem names_ofList {names : List String} (fit : NamesFit names) :
    (ofList names).names = names := by
  have count_eq : (UInt32.ofNat names.length).toNat = names.length :=
    UInt32.toNat_ofNat_of_lt' fit.count
  have passes : (Cursor.start (names.flatMap Borsh.text)).Passes (names.flatMap Borsh.text)
      { position := (names.flatMap Borsh.text).length, rest := [] } :=
    ⟨by simp [Cursor.start], by simp [Cursor.start]⟩
  rw [MethodNames.names, ofList, count_eq]
  exact namesFrom_flatMap_text fit.each passes

/-- The octets between two places are what is taken from the first of them when
as many are taken as lie between. -/
theorem runAt_take_between {first last : Cursor} {octets : Bytes}
    (passes : first.Passes octets last) :
    (Reader.take (last.position - first.position)).runAt first = (.ok octets, last) := by
  have length_eq : octets.length = last.position - first.position := by
    rw [passes.position_eq]
    omega
  exact (Reader.take_exact _).mpr ⟨length_eq, passes⟩

/-- The first pass, in which the names are checked. -/
def checkedNames : Reader (List String) := do
  let count ← Reader.u32
  Reader.repeated Reader.text count.toNat

/-- Names pass the check exactly where a list of them is encoded. -/
theorem checkedNames_exact : checkedNames.Exact NamesFit (Borsh.sequence Borsh.text) := by
  intro cursor next names
  rw [checkedNames, Reader.u32_exact.bind_iff, Borsh.sequence, Borsh.length,
    Cursor.passes_append_iff]
  constructor
  · rintro ⟨count, first, ⟨_, countPasses⟩, read⟩
    rcases (Reader.repeated_exact Reader.text_exact _).mp read with ⟨⟨length_eq, fit⟩, namesPass⟩
    have fits : FitsWord names.length := by
      rw [FitsWord, length_eq]
      exact count.toNat_lt
    rw [length_eq, UInt32.ofNat_toNat]
    exact ⟨⟨fits, fit⟩, first, countPasses, namesPass⟩
  · rintro ⟨fit, first, countPasses, namesPass⟩
    have length_eq : names.length = (UInt32.ofNat names.length).toNat :=
      (UInt32.toNat_ofNat_of_lt' fit.count).symm
    exact ⟨_, first, ⟨trivial, countPasses⟩,
      (Reader.repeated_exact Reader.text_exact _).mpr ⟨⟨length_eq, fit.each⟩, namesPass⟩⟩

/-- The octets that are read once more are the encodings of the names that were
checked. -/
theorem reader_eq : reader = do return ofList (← checkedNames) := by
  simp only [reader, checkedNames, bind_assoc]
  refine bind_congr fun count => Reader.ext fun first => ?_
  simp only [Reader.runAt_bind, Reader.runAt_get]
  rcases read : (Reader.repeated Reader.text count.toNat).runAt first with
    ⟨refusal | names, last⟩
  · rfl
  · rcases (Reader.repeated_exact Reader.text_exact _).mp read with ⟨⟨length_eq, _⟩, passes⟩
    simp only [runAt_take_between passes, Reader.runAt_pure, ofList, length_eq,
      UInt32.ofNat_toNat]

/-- The encoded form is read exactly from the encoding of a list. -/
theorem reader_exact :
    reader.ExactThrough ofList NamesFit (Borsh.sequence Borsh.text) := by
  intro cursor next methods
  rw [reader_eq, checkedNames_exact.bind_iff]
  constructor
  · rintro ⟨names, last, ⟨fit, passes⟩, returned⟩
    rcases Reader.runAt_pure_eq_ok_iff.mp returned with ⟨rfl, rfl⟩
    exact ⟨names, fit, rfl, passes⟩
  · rintro ⟨names, fit, rfl, passes⟩
    exact ⟨names, next, ⟨fit, passes⟩, rfl⟩

/-- The names that are read again are those that were checked.  Wherever a list of
names is read, they come in their order and in the number that is declared; their
encodings are all that is kept, and the cursor stands behind them.  What lies
before the list or behind it makes no difference, and there is a failure exactly
where no list is encoded. -/
theorem names_read_again_are_those_checked :
    (∀ (cursor next : Cursor) (methods : MethodNames),
      reader.runAt cursor = (.ok methods, next) →
        ∃ names : List String, checkedNames.runAt cursor = (.ok names, next) ∧
          (Reader.u32.runAt cursor).1 = .ok methods.count ∧
          methods.names = names ∧ methods.count.toNat = names.length ∧
          (methods.isEmpty = true ↔ methods.count.toNat = 0) ∧
          methods.encoded = names.flatMap Borsh.text ∧
          next = cursor.advance (4 + methods.encoded.length)) ∧
    (∀ names : List String, NamesFit names → ∀ (position : Nat) (rest : Bytes),
      reader.runAt { position, rest := Borsh.sequence Borsh.text names ++ rest } =
        (.ok (ofList names),
          { position := position + (4 + (names.flatMap Borsh.text).length), rest })) ∧
    (∀ cursor : Cursor, (∃ refusal, (reader.runAt cursor).1 = .error refusal) ↔
      ∀ names : List String, NamesFit names → ¬Borsh.sequence Borsh.text names <+: cursor.rest) := by
  constructor
  · intro cursor next methods read
    rcases reader_exact.mp read with ⟨names, fit, rfl, passes⟩
    rcases Cursor.passes_append_iff.mp passes with ⟨first, countPasses, _⟩
    have declared : Reader.u32.runAt cursor = (.ok (ofList names).count, first) :=
      Reader.u32_exact.mpr ⟨trivial, countPasses⟩
    have count_eq : (ofList names).count.toNat = names.length :=
      UInt32.toNat_ofNat_of_lt' fit.count
    have none_iff : (ofList names).isEmpty = true ↔ (ofList names).count.toNat = 0 := by
      rw [isEmpty, beq_iff_eq, ← UInt32.toNat_inj]
      rfl
    refine ⟨names, checkedNames_exact.mpr ⟨fit, passes⟩, congrArg Prod.fst declared,
      names_ofList fit, count_eq, none_iff, rfl, ?_⟩
    rw [passes.eq_advance, Borsh.length_sequence]
    rfl
  constructor
  · intro names fit position rest
    refine reader_exact.mpr ⟨names, fit, rfl, rfl, ?_⟩
    rw [Borsh.length_sequence]
  · intro cursor
    exact reader_exact.fails_iff

/-- Two names in the midst of other octets, and a list that is cut off. -/
theorem names_read_again_of_vote :
    let names := ["vote", ""]
    let octets := Borsh.sequence Borsh.text names ++ [0xEE]
    NamesFit names ∧
    reader.runAt { position := 7, rest := octets } =
      (.ok (ofList names), { position := 23, rest := [0xEE] }) ∧
    (ofList names).names = names ∧ (ofList names).count = 2 ∧
    ∃ refusal, (reader.runAt (Cursor.start [2, 0])).1 = .error refusal := by
  intro names octets
  have fit : NamesFit names := by decide
  obtain ⟨again, anywhere, nowhere⟩ := names_read_again_are_those_checked
  have read : reader.runAt { position := 7, rest := octets } =
      (.ok (ofList names), { position := 23, rest := [0xEE] }) := anywhere names fit 7 [0xEE]
  have passed : checkedNames.runAt { position := 7, rest := octets } =
      (.ok names, { position := 23, rest := [0xEE] }) :=
    checkedNames_exact.mpr ⟨fit, rfl, rfl⟩
  obtain ⟨checked, checks, _, names_eq, _⟩ := again _ _ _ read
  rw [passed] at checks
  cases checks
  refine ⟨fit, read, names_eq, rfl, (nowhere _).mpr ?_⟩
  rintro others _ ⟨rest, rest_eq⟩
  have length_eq := congrArg List.length rest_eq
  rw [List.length_append, Borsh.length_sequence, Cursor.start, List.length_cons,
    List.length_singleton] at length_eq
  omega

end NearSigner.MethodNames

namespace NearSigner.Borsh.Reader

theorem Law.methodNames {Holds : (α : Type) → Reader α → Prop} (law : Law Holds) :
    Holds MethodNames MethodNames.reader := by
  have checked : Holds (List String) MethodNames.checkedNames :=
    law.bind law.u32 fun _ => law.repeated law.text _
  rw [MethodNames.reader_eq]
  exact law.bind checked fun _ => law.pure _

end NearSigner.Borsh.Reader
