import Mathlib.Data.List.Forall2
import NearSigner.Proofs.Review.Values
import NearSigner.Proofs.Transaction.Exact

/-!
# What a plan says about a transaction

The plan of a transaction determines its effects and depends on nothing else.
Already the values of the plan, without their labels, can be parsed back: the
heading of an action says which values follow it, and the value that shows a
permission says which values follow that one.  A contract is shown by its size
and its digest, and a list of method names by one text, so actions are told
apart up to these.
-/

namespace NearSigner

/-! ## Effects that are alike -/

/-- Permissions that a plan does not tell apart. -/
inductive Permission.Alike : Permission (List String) → Permission (List String) → Prop
  | functionCall (allowance : Option Amount) (receiver : String) {names others : List String}
      (shown : (MethodNames.ofList names).shown = (MethodNames.ofList others).shown) :
      Alike (functionCall allowance receiver names) (functionCall allowance receiver others)
  | fullAccess : Alike fullAccess fullAccess

/-- Actions that a plan does not tell apart. -/
inductive Action.Alike : Action (List String) → Action (List String) → Prop
  | createAccount : Alike createAccount createAccount
  | deployContract {code other : Bytes} (size : code.length = other.length)
      (digest : Sha2.sha256 code = Sha2.sha256 other) :
      Alike (deployContract code) (deployContract other)
  | functionCall (call : FunctionCall) : Alike (functionCall call) (functionCall call)
  | transfer (deposit : Amount) : Alike (transfer deposit) (transfer deposit)
  | stake (amount : Amount) (validatorKey : PublicKey) :
      Alike (stake amount validatorKey) (stake amount validatorKey)
  | addKey (publicKey : PublicKey) (nonce : UInt64) {permission other : Permission (List String)}
      (alike : permission.Alike other) :
      Alike (addKey publicKey { nonce, permission })
        (addKey publicKey { nonce, permission := other })
  | deleteKey (publicKey : PublicKey) : Alike (deleteKey publicKey) (deleteKey publicKey)
  | deleteAccount (beneficiary : String) :
      Alike (deleteAccount beneficiary) (deleteAccount beneficiary)

/-- Transactions of one account upon one account whose actions are alike, one by
one.  The signing key, the nonce and the block hash do not matter. -/
structure Transaction.SameEffects (first second : Transaction) : Prop where
  signer : first.signer = second.signer
  receiver : first.receiver = second.receiver
  actions : List.Forall₂ Action.Alike first.actions second.actions

theorem Permission.Alike.refl (permission : Permission (List String)) :
    permission.Alike permission := by
  cases permission with
  | functionCall allowance receiver names => exact .functionCall allowance receiver rfl
  | fullAccess => exact .fullAccess

theorem Action.Alike.refl (action : Action (List String)) : action.Alike action := by
  cases action with
  | createAccount => exact .createAccount
  | deployContract code => exact .deployContract rfl rfl
  | functionCall call => exact .functionCall call
  | transfer deposit => exact .transfer deposit
  | stake amount validatorKey => exact .stake amount validatorKey
  | addKey publicKey accessKey => exact .addKey publicKey accessKey.nonce (.refl _)
  | deleteKey publicKey => exact .deleteKey publicKey
  | deleteAccount beneficiary => exact .deleteAccount beneficiary

/-! ## The values of a plan -/

/-- The values that show a permission. -/
def Permission.values (permission : Permission (List String)) : List String :=
  (permission.map MethodNames.ofList).contents.map Prod.snd

/-- The values that show an action, its heading in front. -/
def Action.values (action : Action (List String)) : List String :=
  action.kind.name :: (action.map MethodNames.ofList).contents.map Prod.snd

/-- The values that show the number of actions. -/
def countValues (count : UInt32) : List String :=
  (Field.actionCount count).contents.map Prod.snd

/-- The values that show a transaction. -/
def Transaction.values (transaction : Transaction) : List String :=
  transaction.signer :: transaction.receiver ::
    (countValues (UInt32.ofNat transaction.actions.length) ++
      transaction.actions.flatMap Action.values)

theorem Permission.values_functionCall (allowance : Option Amount) (receiver : String)
    (names : List String) :
    (functionCall allowance receiver names).values =
      ["Function call", allowanceText allowance, receiver, (MethodNames.ofList names).shown] := by
  cases allowance <;> rfl

theorem Permission.alike_of_values {first second : Permission (List String)}
    {rest others : List String} (equal : first.values ++ rest = second.values ++ others) :
    first.Alike second ∧ rest = others := by
  cases first with
  | functionCall allowance receiver names =>
      cases second with
      | functionCall allowance' receiver' names' =>
          simp only [values_functionCall, List.cons_append, List.nil_append, List.cons.injEq,
            true_and] at equal
          obtain ⟨allowance_eq, rfl, shown, rest_eq⟩ := equal
          obtain rfl := allowanceText_injective allowance_eq
          exact ⟨.functionCall allowance receiver shown, rest_eq⟩
      | fullAccess =>
          have kind_eq : "Function call" = "Full access" := (List.cons.inj equal).1
          exact absurd kind_eq (by decide)
  | fullAccess =>
      cases second with
      | functionCall allowance receiver names =>
          have kind_eq : "Full access" = "Function call" := (List.cons.inj equal).1
          exact absurd kind_eq (by decide)
      | fullAccess => exact ⟨.fullAccess, List.append_cancel_left equal⟩

theorem Permission.Alike.contents_eq {first second : Permission (List String)}
    (alike : first.Alike second) :
    (first.map MethodNames.ofList).contents = (second.map MethodNames.ofList).contents := by
  cases alike with
  | functionCall allowance receiver shown => simp only [map, contents, shown]
  | fullAccess => rfl

/-- Within one kind the values that follow the heading stand in the same places. -/
theorem Action.alike_of_kind_eq {first second : Action (List String)} {rest others : List String}
    (kind_eq : first.kind = second.kind)
    (equal : (first.map MethodNames.ofList).contents.map Prod.snd ++ rest =
      (second.map MethodNames.ofList).contents.map Prod.snd ++ others) :
    first.Alike second ∧ rest = others := by
  cases first with
  | createAccount =>
      cases second with
      | createAccount => exact ⟨.createAccount, equal⟩
      | _ => cases kind_eq
  | deployContract code =>
      cases second with
      | deployContract other =>
          simp only [map, contents, List.map_cons, List.map_nil, List.cons_append,
            List.nil_append, List.cons.injEq] at equal
          obtain ⟨size_eq, digest_eq, rest_eq⟩ := equal
          have size := decimal_injective ((String.append_left_inj _).mp size_eq)
          have digest := Base58.encode_toBytes_injective digest_eq
          exact ⟨.deployContract size digest, rest_eq⟩
      | _ => cases kind_eq
  | functionCall call =>
      cases second with
      | functionCall other =>
          rcases call with ⟨methodName, args, gas, deposit⟩
          rcases other with ⟨methodName', args', gas', deposit'⟩
          simp only [map, contents, List.map_cons, List.map_nil, List.cons_append,
            List.nil_append, List.cons.injEq] at equal
          obtain ⟨rfl, args_eq, gas_eq, deposit_eq, rest_eq⟩ := equal
          obtain rfl := argsText_injective args_eq
          obtain rfl := UInt64.toNat_inj.mp (decimal_injective gas_eq)
          obtain rfl := BitVec.eq_of_toNat_eq (decimal_injective deposit_eq)
          exact ⟨.functionCall _, rest_eq⟩
      | _ => cases kind_eq
  | transfer deposit =>
      cases second with
      | transfer other =>
          simp only [map, contents, List.map_cons, List.map_nil, List.cons_append,
            List.nil_append, List.cons.injEq] at equal
          obtain ⟨deposit_eq, rest_eq⟩ := equal
          obtain rfl := BitVec.eq_of_toNat_eq (decimal_injective deposit_eq)
          exact ⟨.transfer deposit, rest_eq⟩
      | _ => cases kind_eq
  | stake amount validatorKey =>
      cases second with
      | stake amount' validatorKey' =>
          simp only [map, contents, List.map_cons, List.map_nil, List.cons_append,
            List.nil_append, List.cons.injEq] at equal
          obtain ⟨amount_eq, key_eq, rest_eq⟩ := equal
          obtain rfl := BitVec.eq_of_toNat_eq (decimal_injective amount_eq)
          obtain rfl := PublicKey.text_injective key_eq
          exact ⟨.stake amount validatorKey, rest_eq⟩
      | _ => cases kind_eq
  | addKey publicKey accessKey =>
      cases second with
      | addKey publicKey' accessKey' =>
          rcases accessKey with ⟨nonce, permission⟩
          rcases accessKey' with ⟨nonce', permission'⟩
          simp only [map, AccessKey.map, contents, List.map_cons, List.cons_append,
            List.cons.injEq] at equal
          obtain ⟨key_eq, nonce_eq, rest_eq⟩ := equal
          obtain rfl := PublicKey.text_injective key_eq
          obtain rfl := UInt64.toNat_inj.mp (decimal_injective nonce_eq)
          obtain ⟨alike, rest_eq⟩ := Permission.alike_of_values rest_eq
          exact ⟨.addKey publicKey nonce alike, rest_eq⟩
      | _ => cases kind_eq
  | deleteKey publicKey =>
      cases second with
      | deleteKey other =>
          simp only [map, contents, List.map_cons, List.map_nil, List.cons_append,
            List.nil_append, List.cons.injEq] at equal
          obtain ⟨key_eq, rest_eq⟩ := equal
          obtain rfl := PublicKey.text_injective key_eq
          exact ⟨.deleteKey publicKey, rest_eq⟩
      | _ => cases kind_eq
  | deleteAccount beneficiary =>
      cases second with
      | deleteAccount other =>
          simp only [map, contents, List.map_cons, List.map_nil, List.cons_append,
            List.nil_append, List.cons.injEq] at equal
          obtain ⟨rfl, rest_eq⟩ := equal
          exact ⟨.deleteAccount beneficiary, rest_eq⟩
      | _ => cases kind_eq

/-- The values of an action say where they end and what the action does. -/
theorem Action.alike_of_values {first second : Action (List String)} {rest others : List String}
    (equal : first.values ++ rest = second.values ++ others) :
    first.Alike second ∧ rest = others := by
  simp only [values, List.cons_append, List.cons.injEq] at equal
  obtain ⟨name_eq, contents_eq⟩ := equal
  exact alike_of_kind_eq (ActionKind.name_injective name_eq) contents_eq

theorem Action.kind_map {Names Other : Type} (change : Names → Other) (action : Action Names) :
    (action.map change).kind = action.kind := by
  cases action <;> rfl

theorem Action.Alike.contents_eq {first second : Action (List String)}
    (alike : first.Alike second) :
    (first.map MethodNames.ofList).contents = (second.map MethodNames.ofList).contents := by
  cases alike with
  | deployContract size digest => simp only [map, contents, size, digest]
  | addKey publicKey nonce alike =>
      simp only [map, AccessKey.map, contents, alike.contents_eq]
  | _ => rfl

theorem Action.Alike.kind_eq {first second : Action (List String)} (alike : first.Alike second) :
    first.kind = second.kind := by
  cases alike <;> rfl

/-! ## Lists of actions -/

theorem Action.forall₂_alike_of_values {first second : List (Action (List String))}
    (equal : first.flatMap values = second.flatMap values) :
    List.Forall₂ Alike first second := by
  induction first generalizing second with
  | nil =>
      cases second with
      | nil => exact .nil
      | cons action others => simp [values] at equal
  | cons action others ih =>
      cases second with
      | nil => simp [values] at equal
      | cons action' others' =>
          rw [List.flatMap_cons, List.flatMap_cons] at equal
          obtain ⟨alike, others_eq⟩ := alike_of_values equal
          exact .cons alike (ih others_eq)

theorem Field.values_ofActions (count index : UInt32) (actions : List (Action (List String))) :
    (ofActions count index actions).flatMap (fun field => field.contents.map Prod.snd) =
      actions.flatMap Action.values := by
  induction actions generalizing index with
  | nil => rfl
  | cons action others ih =>
      rw [ofActions, List.flatMap_cons, List.flatMap_cons, ih, contents, Action.kind_map]
      rfl

theorem Field.contents_ofActions_eq {count index : UInt32}
    {first second : List (Action (List String))} (alike : List.Forall₂ Action.Alike first second) :
    (ofActions count index first).flatMap contents =
      (ofActions count index second).flatMap contents := by
  induction alike generalizing index with
  | nil => rfl
  | cons head tail ih =>
      simp only [ofActions, List.flatMap_cons, ih, contents, Action.kind_map, head.kind_eq,
        head.contents_eq]

/-! ## Whole transactions -/

theorem countValues_one : countValues 1 = [] :=
  rfl

theorem countValues_of_ne_one {count : UInt32} (several : count ≠ 1) :
    countValues count = [decimal count.toNat] := by
  rw [countValues, Field.contents, if_neg several]
  rfl

/-- The values of actions start with a heading, which is no number. -/
theorem Action.flatMap_values_ne_decimal (actions : List (Action (List String))) (number : Nat)
    (rest : List String) : actions.flatMap values ≠ decimal number :: rest := by
  intro mistaken
  cases actions with
  | nil => cases mistaken
  | cons action others =>
      exact decimal_ne_actionKind number action.kind (List.cons.inj mistaken).1.symm

/-- The number of actions is shown unless there is exactly one, whose heading is
then in that place. -/
theorem flatMap_values_eq_of_countValues {count number : UInt32}
    {first second : List (Action (List String))}
    (equal : countValues count ++ first.flatMap Action.values =
      countValues number ++ second.flatMap Action.values) :
    first.flatMap Action.values = second.flatMap Action.values := by
  by_cases one : count = 1
  · by_cases other : number = 1
    · rw [one, other] at equal
      exact equal
    · rw [one, countValues_one, countValues_of_ne_one other] at equal
      exact absurd equal (Action.flatMap_values_ne_decimal first _ _)
  · by_cases other : number = 1
    · rw [other, countValues_one, countValues_of_ne_one one] at equal
      exact absurd equal.symm (Action.flatMap_values_ne_decimal second _ _)
    · rw [countValues_of_ne_one one, countValues_of_ne_one other] at equal
      exact (List.cons.inj equal).2

theorem Plan.values_ofList (contents : List (String × String)) :
    (ofList contents).entries.map Entry.value = contents.map Prod.snd := by
  simp [ofList, Entry.make]

namespace Transaction

theorem values_plan (transaction : Transaction) :
    (Plan.ofFields transaction.fields).entries.map Entry.value = transaction.values := by
  rw [Plan.ofFields, Plan.values_ofList, List.map_flatMap, fields, List.flatMap_append,
    Field.values_ofActions, values, countValues]
  simp [Field.contents]

theorem SameEffects.of_values {first second : Transaction} (equal : first.values = second.values) :
    first.SameEffects second := by
  obtain ⟨signer, equal⟩ := List.cons.inj equal
  obtain ⟨receiver, equal⟩ := List.cons.inj equal
  exact ⟨signer, receiver, Action.forall₂_alike_of_values (flatMap_values_eq_of_countValues equal)⟩

theorem SameEffects.plan_eq {first second : Transaction} (same : first.SameEffects second) :
    Plan.ofFields first.fields = Plan.ofFields second.fields := by
  rw [Plan.ofFields, Plan.ofFields, fields, fields, List.flatMap_append, List.flatMap_append,
    same.actions.length_eq, Field.contents_ofActions_eq same.actions]
  simp only [List.flatMap_cons, Field.contents, same.signer, same.receiver]

/-- Plans are equal exactly for the same effects. -/
theorem plan_eq_iff_sameEffects {first second : Transaction} :
    Plan.ofFields first.fields = Plan.ofFields second.fields ↔ first.SameEffects second := by
  constructor
  · intro equal
    apply SameEffects.of_values
    rw [← values_plan, equal, values_plan]
  · exact SameEffects.plan_eq

theorem sameEffects_of_rest (transaction : Transaction) (signerKey : PublicKey) (nonce : UInt64)
    (blockHash : Block 32) :
    { transaction with signerKey, nonce, blockHash }.SameEffects transaction :=
  ⟨rfl, rfl, List.forall₂_same.mpr fun action _ => .refl action⟩

theorem plan_decode {transaction : Transaction} (fits : transaction.Fits) :
    (decode transaction.encode).plan = Plan.ofFields transaction.fields := by
  rw [Decoded.plan, (decode_eq_fields_iff fits).mpr rfl]

/-- The plan of a transaction determines its effects, and only them.  Two
sequences of octets that decode have one plan exactly when their transactions
name the same accounts and have actions that are alike, in the same order; the
signing key, the nonce and the block hash make no difference.  Numbers are shown
exactly, a missing allowance is shown like no amount, and arguments shown as
text are shown like none in hexadecimal. -/
theorem plan_determines_effects :
    (∀ first second : Bytes, (decode first).result = .ok () → (decode second).result = .ok () →
      ∃ one other : Transaction, one.Fits ∧ other.Fits ∧
        decode first = { fields := one.fields, result := .ok () } ∧
        decode second = { fields := other.fields, result := .ok () } ∧
        ((decode first).plan = (decode second).plan ↔ one.SameEffects other)) ∧
    (∀ (transaction : Transaction) (signerKey : PublicKey) (nonce : UInt64) (blockHash : Block 32),
      transaction.Fits →
        (decode { transaction with signerKey, nonce, blockHash }.encode).plan =
          (decode transaction.encode).plan) ∧
    (∀ value : Nat, Nat.ofDigitChars 10 (decimal value).toList 0 = value) ∧
    (∀ (amount : Amount) (receiver other : String) (names more : MethodNames) (value : String),
      ("Allowance (yoctoNEAR)", value) ∈ (Permission.functionCall none receiver names).contents →
        ("Allowance (yoctoNEAR)", value) ∉
          (Permission.functionCall (some amount) other more).contents) ∧
    (∀ args others : Bytes, OpensObject args → ¬OpensObject others →
      Bytes.toText? args = some (argsText args) ∧ argsText others = Hex.encode others ∧
        argsText args ≠ argsText others) := by
  constructor
  · intro first second firstAccepted secondAccepted
    rcases exists_of_decode_ok firstAccepted with ⟨one, fits, rfl, _⟩
    rcases exists_of_decode_ok secondAccepted with ⟨other, otherFits, rfl, _⟩
    refine ⟨one, other, fits, otherFits, (decode_eq_fields_iff fits).mpr rfl,
      (decode_eq_fields_iff otherFits).mpr rfl, ?_⟩
    rw [plan_decode fits, plan_decode otherFits]
    exact plan_eq_iff_sameEffects
  constructor
  · intro transaction signerKey nonce blockHash fits
    have changedFits : { transaction with signerKey, nonce, blockHash }.Fits :=
      ⟨fits.signer, fits.receiver, fits.count, fits.each⟩
    rw [plan_decode changedFits, plan_decode fits]
    exact (sameEffects_of_rest transaction signerKey nonce blockHash).plan_eq
  constructor
  · exact ofDigitChars_decimal
  constructor
  · intro amount receiver other names more value unlimited limited
    have value_eq : value = Permission.allowanceText none := by
      simpa [Permission.contents, Permission.allowanceText] using unlimited
    have amount_eq : value = Permission.allowanceText (some amount) := by
      simpa [Permission.contents, Permission.allowanceText] using limited
    exact Permission.allowanceText_none_ne amount (value_eq.symm.trans amount_eq)
  · intro args others opens other
    exact ⟨toText?_of_opensObject opens, argsText_of_not_opensObject other,
      argsText_ne_of_opensObject opens other⟩

/-- The transaction that restricts a key, with no limit on what the key may
spend. -/
def unlimitedKey : Transaction :=
  { restrictedKey with
    actions :=
      .addKey { kind := .ed25519, data := Vector.replicate 32 1 }
        { nonce := 3, permission := .functionCall none "café.near" ["vote", ""] } ::
      restrictedKey.actions.tail }

theorem plan_of_unlimitedKey :
    let later := { restrictedKey with nonce := 4294967297, blockHash := Vector.replicate 32 5 }
    (decode restrictedKey.encode).result = .ok () ∧ (decode unlimitedKey.encode).result = .ok () ∧
    (decode later.encode).plan = (decode restrictedKey.encode).plan ∧
    (decode unlimitedKey.encode).plan ≠ (decode restrictedKey.encode).plan := by
  intro later
  have fits : restrictedKey.Fits := by decide
  have unlimitedFits : unlimitedKey.Fits := by decide
  have accepted := (decode_eq_fields_iff fits).mpr rfl
  have unlimitedAccepted := (decode_eq_fields_iff unlimitedFits).mpr rfl
  obtain ⟨determines, independent, _⟩ := plan_determines_effects
  have unaffected : (decode later.encode).plan = (decode restrictedKey.encode).plan :=
    independent restrictedKey restrictedKey.signerKey _ _ fits
  refine ⟨by rw [accepted], by rw [unlimitedAccepted], unaffected, ?_⟩
  intro same
  obtain ⟨one, other, oneFits, otherFits, one_eq, other_eq, plan_iff⟩ :=
    determines unlimitedKey.encode restrictedKey.encode (by rw [unlimitedAccepted])
      (by rw [accepted])
  obtain rfl := fields_injective unlimitedFits oneFits
    (congrArg Decoded.fields (unlimitedAccepted.symm.trans one_eq))
  obtain rfl := fields_injective fits otherFits
    (congrArg Decoded.fields (accepted.symm.trans other_eq))
  rcases (plan_iff.mp same).actions with _ | ⟨alike, _⟩
  cases alike with
  | addKey publicKey nonce alike => cases alike

end Transaction

end NearSigner
