import NearSigner.Borsh.Reader

/-!
# Readers that are put together

All readers are put together from few.  What holds of the octets taken at once,
of a value returned and of a refusal, and is kept when one reader runs after
another, holds of every reader of a value.  Such a property is proved for those
few and then had for all.
-/

namespace NearSigner.Borsh.Reader

/-- Readers that do the same at every cursor are the same. -/
theorem ext {α : Type} {first second : Reader α}
    (same : ∀ cursor, first.runAt cursor = second.runAt cursor) : first = second :=
  funext same

/-- A property of readers that is kept when they are put together. -/
structure Law (Holds : (α : Type) → Reader α → Prop) : Prop where
  pure {α : Type} (value : α) : Holds α (pure value)
  throw {α : Type} {refusal : Refusal} (malformed : refusal.isMalformed = true) :
    Holds α (throw refusal)
  take (count : Nat) : Holds Bytes (take count)
  bind {α β : Type} {first : Reader α} {second : α → Reader β} (firstHolds : Holds α first)
    (secondHolds : ∀ value, Holds β (second value)) : Holds β (first >>= second)

namespace Law

variable {α : Type} {Holds : (α : Type) → Reader α → Prop} (law : Law Holds)
include law

/-- A reader of octets that makes something of them. -/
theorem taking (count : Nat) (make : Bytes → α) :
    Holds α (do return make (← Reader.take count)) :=
  law.bind (law.take count) fun _ => law.pure _

theorem block (n : Nat) : Holds (Block n) (block n) := by
  apply law.bind (law.take n)
  intro octets
  split
  · exact law.pure _
  · exact law.throw rfl

theorem u8 : Holds UInt8 u8 := by
  apply law.bind (law.take 1)
  intro octets
  split
  · exact law.pure _
  · exact law.throw rfl

theorem u32 : Holds UInt32 u32 :=
  law.taking 4 _

theorem u64 : Holds UInt64 u64 :=
  law.taking 8 _

theorem u128 : Holds UInt128 u128 :=
  law.taking 16 _

theorem byteString : Holds Bytes byteString :=
  law.bind law.u32 fun _ => law.take _

theorem text : Holds String text := by
  apply law.bind law.byteString
  intro bytes
  split
  · exact law.pure _
  · exact law.throw rfl

theorem optionTag : Holds Bool optionTag := by
  apply law.bind law.u8
  intro tag
  split
  · exact law.pure _
  · exact law.pure _
  · exact law.throw rfl

theorem option {reader : Reader α} (holds : Holds α reader) : Holds (Option α) (option reader) := by
  apply law.bind law.optionTag
  intro present
  cases present with
  | false => exact law.pure _
  | true => exact law.bind holds fun _ => law.pure _

theorem repeated {reader : Reader α} (holds : Holds α reader) (count : Nat) :
    Holds (List α) (repeated reader count) := by
  induction count with
  | zero => exact law.pure _
  | succ count ih => exact law.bind holds fun _ => law.bind ih fun _ => law.pure _

end Law

/-! ## Failures -/

variable {α : Type}

/-- Every failure of the reader reports malformed data. -/
def FailsMalformed (reader : Reader α) : Prop :=
  ∀ ⦃cursor next : Cursor⦄ ⦃refusal : Refusal⦄,
    reader.runAt cursor = (.error refusal, next) → refusal.isMalformed = true

/-- Whatever readers are put together, their failures report malformed data. -/
theorem failsMalformed_law : Law fun _ reader => reader.FailsMalformed where
  pure value := by
    intro cursor next refusal failed
    cases failed
  throw malformed := by
    intro cursor next reported failed
    cases failed
    exact malformed
  take count := by
    intro cursor next refusal failed
    rw [runAt_take] at failed
    split at failed
    · cases failed
      rfl
    · cases failed
  bind firstFails secondFails := by
    intro cursor next refusal failed
    rw [runAt_bind] at failed
    split at failed
    · exact secondFails _ failed
    · rename_i earlier middle firstFailed
      cases failed
      exact firstFails firstFailed

end NearSigner.Borsh.Reader
