import NearSigner.Proofs.Transaction.Exact

/-!
# Decoding from the front

The decoder goes through its octets from the front and never looks at more of
them than it has to.  Octets that are added behind make no difference, unless it
has come to the end of those before: then the part that was cut off may be read
after all, or something is left over behind a whole transaction.
-/

namespace NearSigner

open Borsh

/-- The cursor with more octets at the end. -/
def Borsh.Cursor.extend (cursor : Cursor) (more : Bytes) : Cursor where
  position := cursor.position
  rest := cursor.rest ++ more

namespace Borsh.Reader

variable {α : Type}

/-- Unless the reader lacks octets, it does the same when there are more. -/
def Stable (reader : Reader α) : Prop :=
  ∀ ⦃cursor next : Cursor⦄ ⦃result : Except Refusal α⦄,
    reader.runAt cursor = (result, next) → result ≠ .error .truncatedInput →
      ∀ more, reader.runAt (cursor.extend more) = (result, next.extend more)

/-- Whatever stable readers are put together, the result is stable. -/
theorem stable_law : Law fun _ reader => reader.Stable where
  pure value := by
    intro cursor next result ran untruncated more
    cases ran
    rfl
  throw malformed := by
    intro cursor next result ran untruncated more
    cases ran
    rfl
  take count := by
    intro cursor next result ran untruncated more
    rw [runAt_take] at ran
    by_cases short : cursor.remaining < count
    · rw [if_pos short] at ran
      cases ran
      exact absurd rfl untruncated
    · have enough : count ≤ cursor.rest.length := Nat.not_lt.mp short
      have stillEnough : ¬(cursor.extend more).remaining < count := by
        simp only [Cursor.remaining, Cursor.extend, List.length_append]
        omega
      rw [if_neg short] at ran
      cases ran
      rw [runAt_take, if_neg stillEnough]
      simp only [Cursor.extend, Cursor.advance, List.take_append_of_le_length enough,
        List.drop_append_of_le_length enough]
  bind firstStable secondStable := by
    intro cursor next result ran untruncated more
    rw [runAt_bind] at ran ⊢
    split at ran
    · rename_i value middle firstRan
      rw [firstStable firstRan (by simp) more]
      exact secondStable value ran untruncated more
    · rename_i refusal middle firstRan
      cases ran
      have other : refusal ≠ .truncatedInput := fun same => untruncated (congrArg _ same)
      rw [firstStable firstRan (fun same => other (Except.error.inj same)) more]

end Borsh.Reader

/-- What becomes of a decoding when there are more octets. -/
inductive Decoded.Extends : Decoded → Decoded → Prop
  | accepted (fields : List Field) :
      Extends { fields, result := .ok () } { fields, result := .error .trailingData }
  | refused (fields : List Field) {refusal : Refusal} (other : refusal ≠ .truncatedInput) :
      Extends { fields, result := .error refusal } { fields, result := .error refusal }
  | truncated {fields : List Field} {longer : Decoded} (isPrefix : fields <+: longer.fields) :
      Extends { fields, result := .error .truncatedInput } longer

namespace Decoder

/-- The outcome of a decoder, without the place where it stopped. -/
def decodeAt (decoder : Decoder Unit) (progress : Progress) : Decoded where
  fields := (decoder.runAt progress).2.visited
  result := (decoder.runAt progress).1

/-- The decoder keeps the fields it has handed over, and what it makes of more
octets extends what it makes of those it has. -/
structure Extensible (more : Bytes) (decoder : Decoder Unit) : Prop where
  keeps : ∀ progress, progress.visited <+: (decoder.decodeAt progress).fields
  extend : ∀ progress, (decoder.decodeAt progress).Extends
    (decoder.decodeAt { progress with cursor := progress.cursor.extend more })

theorem decodeAt_read_visit {α : Type} (reader : Reader α) (field : α → Field)
    (rest : α → Decoder Unit) (progress : Progress) :
    decodeAt (do let part ← read reader; visit (field part); rest part) progress =
      match reader.runAt progress.cursor with
      | (.ok part, cursor) =>
          (rest part).decodeAt { cursor, visited := progress.visited ++ [field part] }
      | (.error refusal, _) => { fields := progress.visited, result := .error refusal } := by
  rw [decodeAt, runAt_read_visit]
  rcases reader.runAt progress.cursor with ⟨result, cursor⟩
  cases result <;> rfl

theorem decodeAt_finish (progress : Progress) :
    finish.decodeAt progress =
      { fields := progress.visited
        result := if progress.cursor.atEnd then .ok () else .error .trailingData } := by
  rw [decodeAt, runAt_finish]

/-- What stable readers read and hand over can be extended. -/
theorem extensible_law {more : Bytes} (nonempty : more ≠ []) :
    Law (fun _ reader => reader.Stable) (Extensible more) where
  read_visit {α reader field rest} stable restExtensible := by
    have keeps (progress : Progress) : progress.visited <+:
        (decodeAt (do let part ← read reader; visit (field part); rest part) progress).fields := by
      rw [decodeAt_read_visit]
      rcases reader.runAt progress.cursor with ⟨refusal | part, cursor⟩
      · exact List.prefix_rfl
      · have behind := (restExtensible part).keeps
          { cursor, visited := progress.visited ++ [field part] }
        exact (List.prefix_append _ _).trans behind
    refine ⟨keeps, fun progress => ?_⟩
    rw [decodeAt_read_visit]
    rcases ran : reader.runAt progress.cursor with ⟨refusal | part, cursor⟩
    · by_cases truncated : refusal = .truncatedInput
      · -- The part may be read now, and more be handed over behind it.
        subst truncated
        exact .truncated (keeps { progress with cursor := progress.cursor.extend more })
      · have extended := stable ran (fun same => truncated (Except.error.inj same)) more
        simp only [decodeAt_read_visit, extended]
        exact .refused _ truncated
    · have extended := stable ran (by simp) more
      simp only [decodeAt_read_visit, extended]
      exact (restExtensible part).extend _
  finish := by
    constructor
    · intro progress
      simp [decodeAt_finish]
    · intro progress
      have unended : (progress.cursor.extend more).atEnd = false := by
        simp [Cursor.atEnd, Cursor.remaining, Cursor.extend, nonempty]
      rw [decodeAt_finish, decodeAt_finish, unended]
      cases progress.cursor.atEnd with
      | true => exact .accepted _
      | false => exact .refused _ (by decide)

end Decoder

namespace Transaction

theorem decode_extends (bytes : Bytes) {more : Bytes} (nonempty : more ≠ []) :
    (decode bytes).Extends (decode (bytes ++ more)) := by
  have extensible : Decoder.Extensible more Decoder.transaction :=
    (Decoder.extensible_law nonempty).transaction Reader.stable_law
  exact extensible.extend { cursor := Cursor.start bytes, visited := [] }

/-- A transaction that is cut off anywhere is refused for the octets it lacks, and
the fields in front of the cut are those of the transaction. -/
theorem decode_take {octets : Bytes} (accepted : (decode octets).result = .ok ()) {cut : Nat}
    (inside : cut < octets.length) :
    (decode (octets.take cut)).result = .error .truncatedInput ∧
      (decode (octets.take cut)).fields <+: (decode octets).fields := by
  have nonempty : octets.drop cut ≠ [] := by
    rw [Ne, List.drop_eq_nil_iff]
    omega
  have extended := decode_extends (octets.take cut) nonempty
  rw [List.take_append_drop] at extended
  generalize decode (octets.take cut) = front at extended
  generalize decode octets = whole at extended accepted
  cases extended with
  | accepted fields => cases accepted
  | refused fields other => cases accepted
  | truncated isPrefix => exact ⟨rfl, isPrefix⟩

/-- Octets behind those that are decoded change the outcome in one way only.  Behind
a whole transaction they are refused as left over, every refusal stays except
that for octets that are lacking, and in that case the fields handed over are
those in front.  So whatever comes in front of a cut through a transaction is
handed over, and no other refusal is given for it. -/
theorem decoding_is_stable_under_extension :
    (∀ bytes more : Bytes, more ≠ [] →
      ((decode bytes).result = .ok () → decode (bytes ++ more) =
        { fields := (decode bytes).fields, result := .error .trailingData }) ∧
      (∀ refusal, (decode bytes).result = .error refusal → refusal ≠ .truncatedInput →
        decode (bytes ++ more) =
          { fields := (decode bytes).fields, result := .error refusal }) ∧
      ((decode bytes).result = .error .truncatedInput →
        (decode bytes).fields <+: (decode (bytes ++ more)).fields)) ∧
    ∀ octets : Bytes, (decode octets).result = .ok () → ∀ cut < octets.length,
      (decode (octets.take cut)).result = .error .truncatedInput ∧
        (decode (octets.take cut)).fields <+: (decode octets).fields := by
  constructor
  · intro bytes more nonempty
    have extended := decode_extends bytes nonempty
    generalize decode bytes = front at extended ⊢
    generalize decode (bytes ++ more) = whole at extended ⊢
    constructor
    · intro accepted
      cases extended with
      | accepted fields => rfl
      | refused fields other => cases accepted
      | truncated isPrefix => cases accepted
    constructor
    · intro refusal refused untruncated
      cases extended with
      | accepted fields => cases refused
      | refused fields other =>
          cases refused
          rfl
      | truncated isPrefix =>
          cases refused
          exact absurd rfl untruncated
    · intro truncated
      cases extended with
      | accepted fields => cases truncated
      | refused fields other => exact List.prefix_rfl
      | truncated isPrefix => exact isPrefix
  · intro octets accepted cut inside
    exact decode_take accepted inside

theorem decoding_is_stable_from_restrictedKey :
    let octets := restrictedKey.encode
    (decode octets).result = .ok () ∧
    (decode (octets ++ [0])).result = .error .trailingData ∧
    (decode (octets.take 100)).result = .error .truncatedInput ∧
    (decode (octets.take 100)).fields <+: restrictedKey.fields := by
  intro octets
  have decoded : decode octets = { fields := restrictedKey.fields, result := .ok () } :=
    (decode_eq_fields_iff (by decide)).mpr rfl
  have accepted : (decode octets).result = .ok () := by rw [decoded]
  obtain ⟨extended, cut⟩ := decoding_is_stable_under_extension
  obtain ⟨leftOver, _, _⟩ := extended octets [0] (by simp)
  obtain ⟨truncated, isPrefix⟩ := cut octets accepted 100 (by decide +kernel)
  rw [decoded] at isPrefix
  exact ⟨accepted, by rw [leftOver accepted], truncated, isPrefix⟩

end Transaction

end NearSigner
