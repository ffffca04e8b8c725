import Mathlib.Algebra.GroupWithZero.Nat
import Mathlib.Order.Hom.Basic
import NearSigner.Proofs.Transaction.Extension
import NearSigner.Review.Rendering

/-!
# The length of a plan

A transaction declares how many actions it has and how many methods a key may
call, each by a word of 32 bits.  Neither number counts for anything by itself.
Whatever is read and handed over has taken octets, an action at least as many as
it is shown by entries, so the octets bound what a decoder hands over, and a
plan, whatever is declared and however the decoding ends.
-/

namespace NearSigner

open Borsh

/-! ## Octets that are taken -/

namespace Borsh.Reader

variable {α : Type}

/-- The reader succeeds only if it takes so many octets. -/
def Costs (reader : Reader α) (cost : Nat) : Prop :=
  ∀ ⦃cursor next : Cursor⦄ ⦃value : α⦄,
    reader.runAt cursor = (.ok value, next) → next.remaining + cost ≤ cursor.remaining

theorem Exact.costs {reader : Reader α} {Fits : α → Prop} {encode : α → Bytes} {cost : Nat}
    (exact : reader.Exact Fits encode) (length_le : ∀ value, cost ≤ (encode value).length) :
    reader.Costs cost := by
  intro cursor next value read
  have taken := (exact.mp read).2.remaining_eq
  have least := length_le value
  omega

theorem text_costs : text.Costs 4 :=
  text_exact.costs fun value => by simp

theorem u32_costs : u32.Costs 4 :=
  u32_exact.costs fun value => by simp

theorem u64_costs : u64.Costs 8 :=
  u64_exact.costs fun value => by simp

theorem block_costs (n : Nat) : (block n).Costs n :=
  (block_exact n).costs fun value => by simp

end Borsh.Reader

theorem PublicKey.length_encode (key : PublicKey) : key.encode.length = 33 := by
  simp [encode]

theorem PublicKey.reader_costs : reader.Costs 33 :=
  reader_exact.costs fun key => by rw [length_encode]

namespace MethodNames

/-- The size of a name is written in front of it, so even names without
characters take octets. -/
theorem four_mul_length_le (names : List String) :
    4 * names.length ≤ (names.flatMap Borsh.text).length := by
  induction names with
  | nil => exact Nat.le_refl 0
  | cons name others ih =>
      rw [List.flatMap_cons, List.length_append, Borsh.length_text, List.length_cons]
      omega

/-- Names are counted for what they are: so many names take so many octets. -/
theorem consumed_of_reader {cursor next : Cursor} {methods : MethodNames}
    (read : reader.runAt cursor = (.ok methods, next)) :
    cursor.position + (4 + 4 * methods.count.toNat) ≤ next.position ∧
      next.remaining + (4 + 4 * methods.count.toNat) ≤ cursor.remaining := by
  rcases reader_exact.mp read with ⟨names, fit, rfl, passes⟩
  have count_eq : (ofList names).count.toNat = names.length :=
    UInt32.toNat_ofNat_of_lt' fit.count
  have least := four_mul_length_le names
  have position_eq := passes.position_eq
  have remaining_eq := passes.remaining_eq
  rw [Borsh.length_sequence] at position_eq remaining_eq
  omega

end MethodNames

/-- An action takes more octets than there are entries for what it does, so there
is one octet for its heading as well. -/
theorem Action.length_contents_lt (action : Action (List String)) :
    (action.map MethodNames.ofList).contents.length < action.encode.length := by
  cases action with
  | addKey publicKey accessKey =>
      rcases accessKey with ⟨nonce, permission⟩
      cases permission <;>
        simp only [map, AccessKey.map, Permission.map, contents, Permission.contents, encode,
          AccessKey.encode, List.length_cons, List.length_nil, List.length_append,
          PublicKey.length_encode, length_u64] <;>
        omega
  | _ =>
      simp only [map, contents, encode, FunctionCall.encode, List.length_cons, List.length_nil,
        List.length_append, length_byteString, length_text, length_u64, length_u128,
        PublicKey.length_encode]
      omega

/-! ## What is handed over -/

/-- Whether the field is an action. -/
def Field.isAction : Field → Bool
  | action _ _ _ => true
  | _ => false

/-- What fields weigh together. -/
def Field.total (weigh : Field → Nat) (fields : List Field) : Nat :=
  (fields.map weigh).sum

theorem Field.total_append_singleton (weigh : Field → Nat) (fields : List Field)
    (field : Field) : total weigh (fields ++ [field]) = total weigh fields + weigh field := by
  simp [total]

theorem Field.total_isAction (fields : List Field) :
    total (fun field => field.isAction.toNat) fields = fields.countP isAction := by
  induction fields with
  | nil => rfl
  | cons field others ih =>
      rw [List.countP_cons, ← ih]
      cases found : field.isAction <;> simp [total, found, Nat.add_comm]

theorem Plan.length_ofFields (fields : List Field) :
    (ofFields fields).length = Field.total (fun field => field.contents.length) fields := by
  simp [ofFields, ofList, length, List.length_flatMap, Field.total]

namespace Decoder

/-- The bound where a part takes at least `cost` octets and weighs at most
`weight`: nothing is handed over without the octets, and the rest of the
bound holds for the rest of them. -/
def boundBehind (cost weight : Nat) (bound : Nat →o Nat) : Nat →o Nat where
  toFun remaining := if remaining < cost then 0 else weight + bound (remaining - cost)
  monotone' := by
    intro fewer more fewer_le
    have rises : bound (fewer - cost) ≤ bound (more - cost) :=
      bound.monotone (Nat.sub_le_sub_right fewer_le cost)
    dsimp only
    split_ifs <;> omega

theorem boundBehind_apply (cost weight : Nat) (bound : Nat →o Nat) (remaining : Nat) :
    boundBehind cost weight bound remaining =
      if remaining < cost then 0 else weight + bound (remaining - cost) :=
  rfl

/-- However the decoding ends, the fields that are handed over weigh no more than
the bound for the octets that are there. -/
def Within (weigh : Field → Nat) (bound : Nat →o Nat) (decoder : Decoder Unit) : Prop :=
  ∀ progress, Field.total weigh (decoder.decodeAt progress).fields ≤
    Field.total weigh progress.visited + bound progress.cursor.remaining

variable {α : Type} {weigh : Field → Nat} {reader : Reader α} {field : α → Field}
  {rest : α → Decoder Unit} {bound whole : Nat →o Nat}

/-- A part that is handed over is paid for by the octets it takes. -/
theorem Within.read_visit
    (paid : ∀ ⦃cursor next : Cursor⦄ ⦃part : α⦄, reader.runAt cursor = (.ok part, next) →
      weigh (field part) + bound next.remaining ≤ whole cursor.remaining)
    (restWithin : ∀ part, Within weigh bound (rest part)) :
    Within weigh whole (do let part ← read reader; visit (field part); rest part) := by
  intro progress
  rw [decodeAt_read_visit]
  rcases ran : reader.runAt progress.cursor with ⟨refusal | part, cursor⟩
  · exact Nat.le_add_right _ _
  · have bounded := restWithin part { cursor, visited := progress.visited ++ [field part] }
    have afforded := paid ran
    rw [Field.total_append_singleton] at bounded
    dsimp only at bounded ⊢
    omega

theorem Within.part {cost weight : Nat} (costs : reader.Costs cost)
    (weight_le : ∀ part, weigh (field part) ≤ weight)
    (restWithin : ∀ part, Within weigh bound (rest part)) :
    Within weigh (boundBehind cost weight bound)
      (do let part ← read reader; visit (field part); rest part) := by
  refine .read_visit (fun cursor next part ran => ?_) restWithin
  have taken := costs ran
  have rises : bound next.remaining ≤ bound (cursor.remaining - cost) :=
    bound.monotone (by omega)
  have light := weight_le part
  rw [boundBehind_apply, if_neg (by omega)]
  omega

theorem Within.finish : Within weigh bound Decoder.finish := by
  intro progress
  rw [decodeAt_finish]
  exact Nat.le_add_right _ _

/-- What fields may weigh to be paid for by the octets of a transaction: the
accounts and the number of actions at most so much, an action no more than it
takes octets, and the other fields nothing. -/
structure Affordable (weigh : Field → Nat) (weight : Nat) : Prop where
  signer : ∀ account, weigh (.signer account) ≤ weight
  signerKey : ∀ key, weigh (.signerKey key) ≤ 0
  nonce : ∀ value, weigh (.nonce value) ≤ 0
  receiver : ∀ account, weigh (.receiver account) ≤ weight
  blockHash : ∀ hash, weigh (.blockHash hash) ≤ 0
  actionCount : ∀ count, weigh (.actionCount count) ≤ weight
  action : ∀ index count (action : Action (List String)),
    weigh (.action index count (action.map MethodNames.ofList)) ≤ action.encode.length

variable {weight : Nat} (affordable : Affordable weigh weight)
include affordable

/-- Every action of a list is paid for, so the octets bound them all. -/
theorem within_actions (count index : UInt32) (remaining : Nat) :
    Within weigh OrderHom.id (do actions count index remaining; finish) := by
  induction remaining generalizing index with
  | zero =>
      rw [actions, pure_bind]
      exact .finish
  | succ remaining ih =>
      simp only [actions, bind_assoc]
      refine .read_visit (fun cursor next value ran => ?_) fun _ => ih (index + 1)
      rcases Action.reader_exact.mp ran with ⟨action, _, rfl, passes⟩
      have paid := affordable.action index count action
      rw [OrderHom.id_coe, id, id, passes.remaining_eq]
      omega

theorem within_transaction :
    Within weigh
      (boundBehind 4 weight <| boundBehind 33 0 <| boundBehind 8 0 <| boundBehind 4 weight <|
        boundBehind 32 0 <| boundBehind 4 weight OrderHom.id) transaction := by
  apply Within.part Reader.text_costs affordable.signer
  intro signer
  apply Within.part PublicKey.reader_costs affordable.signerKey
  intro signerKey
  apply Within.part Reader.u64_costs affordable.nonce
  intro nonce
  apply Within.part Reader.text_costs affordable.receiver
  intro receiver
  apply Within.part (Reader.block_costs 32) affordable.blockHash
  intro blockHash
  apply Within.part Reader.u32_costs affordable.actionCount
  intro count
  exact within_actions affordable count 0 count.toNat

/-- In front of its actions a transaction takes at least 85 octets.  With fewer
the number of actions is not handed over, and with more the actions are paid
for by those that are left. -/
theorem total_decode_le (bytes : Bytes) :
    Field.total weigh (Transaction.decode bytes).fields ≤
      if bytes.length < 85 then 2 * weight else 3 * weight + (bytes.length - 85) := by
  have within := within_transaction affordable { cursor := Cursor.start bytes, visited := [] }
  have remaining_eq : (Cursor.start bytes).remaining = bytes.length := rfl
  have none_eq : Field.total weigh [] = 0 := rfl
  rw [remaining_eq, none_eq] at within
  refine Nat.le_trans within ?_
  simp only [boundBehind_apply, OrderHom.id_coe, id]
  split_ifs <;> omega

end Decoder

theorem Field.affordable_isAction :
    Decoder.Affordable (fun field => field.isAction.toNat) 0 where
  signer _ := Nat.le_refl 0
  signerKey _ := Nat.le_refl 0
  nonce _ := Nat.le_refl 0
  receiver _ := Nat.le_refl 0
  blockHash _ := Nat.le_refl 0
  actionCount _ := Nat.le_refl 0
  action _ _ action := by
    rw [Action.encode_eq_cons]
    exact Nat.le_add_left 1 _

theorem Field.affordable_contents :
    Decoder.Affordable (fun field => field.contents.length) 1 where
  signer _ := Nat.le_refl 1
  signerKey _ := Nat.le_refl 0
  nonce _ := Nat.le_refl 0
  receiver _ := Nat.le_refl 1
  blockHash _ := Nat.le_refl 0
  actionCount count := by
    rw [contents]
    split <;> simp
  action _ _ action := action.length_contents_lt

namespace Transaction

theorem countP_isAction_le (bytes : Bytes) :
    (decode bytes).fields.countP Field.isAction ≤
      if bytes.length < 85 then 0 else bytes.length - 85 := by
  have bounded := Decoder.total_decode_le Field.affordable_isAction bytes
  simpa only [Field.total_isAction, Nat.mul_zero, Nat.zero_add] using bounded

theorem length_plan_le (bytes : Bytes) :
    (decode bytes).plan.length ≤ if bytes.length < 85 then 2 else 3 + (bytes.length - 85) := by
  rw [Decoded.plan, Plan.length_ofFields]
  exact Decoder.total_decode_le Field.affordable_contents bytes

-- Both bounds are reached, whatever is declared.
example :
    let front := Borsh.text "" ++ List.replicate 33 0 ++ Borsh.u64 1 ++ Borsh.text "" ++
      List.replicate 32 0 ++ Borsh.u32 0xFFFFFFFF
    (decode (front.take 84)).plan.length = 2 ∧ (decode (front ++ [0, 0])).plan.length = 5 := by
  decide +kernel

end Transaction

end NearSigner
