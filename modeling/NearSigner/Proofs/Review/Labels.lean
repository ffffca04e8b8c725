import Mathlib.Data.Nat.Digits.Defs
import NearSigner.Proofs.Review.Effects

/-!
# The labels of a plan

The labels of a plan come from the kinds of the actions and from their places in
the list.  No text, amount or key of a transaction has a part in them, and none
is so long that it would be cut.  So a transaction can neither show a warning
that is not its own nor keep one back.
-/

namespace NearSigner

/-! ## Labels that are stored in full -/

theorem utf8ByteSize_ofList_cons (char : Char) (rest : List Char) :
    (String.ofList (char :: rest)).utf8ByteSize =
      char.utf8Size + (String.ofList rest).utf8ByteSize := by
  rw [String.ofList_cons, String.utf8ByteSize_append, String.utf8ByteSize_singleton]

theorem fittingPart_eq_self {room : Nat} {chars : List Char}
    (fits : (String.ofList chars).utf8ByteSize ≤ room) : fittingPart room chars = chars := by
  induction chars generalizing room with
  | nil => cases room <;> rfl
  | cons char rest ih =>
      rw [utf8ByteSize_ofList_cons] at fits
      rw [fittingPart, if_pos (by omega), ih (by omega)]

/-- A label that is short enough is not cut. -/
theorem cutLabel_eq_self {label : String} (short : label.utf8ByteSize ≤ maxLabelSize) :
    cutLabel label = label := by
  rw [cutLabel, fittingPart_eq_self (by rwa [String.ofList_toList]), String.ofList_toList]

/-- The entry with a label in full. -/
def Entry.uncut (content : String × String) : Entry where
  label := content.1
  value := content.2

theorem Entry.make_eq_uncut {label value : String} (short : label.utf8ByteSize ≤ maxLabelSize) :
    make label value = uncut (label, value) := by
  rw [make, cutLabel_eq_self short, uncut]

/-- The labels of a plan, as they are stored. -/
def Plan.labels (plan : Plan) : List String :=
  plan.entries.map Entry.label

theorem Plan.entries_ofFields_append (first second : List Field) :
    (ofFields (first ++ second)).entries =
      (ofFields first).entries ++ (ofFields second).entries := by
  simp [ofFields, ofList]

theorem Plan.entries_ofList_of_short {contents : List (String × String)}
    (short : ∀ content ∈ contents, content.1.utf8ByteSize ≤ maxLabelSize) :
    (ofList contents).entries = contents.map Entry.uncut := by
  apply List.map_congr_left
  intro content member
  exact Entry.make_eq_uncut (short content member)

theorem utf8Size_of_isDigit {char : Char} (digit : char.isDigit = true) : char.utf8Size = 1 := by
  rw [Char.utf8Size_eq_one_iff]
  simp only [Char.isDigit, Bool.and_eq_true, decide_eq_true_eq] at digit
  exact UInt32.le_trans digit.2 (by decide)

/-- A number takes one octet for each of its digits. -/
theorem utf8ByteSize_decimal_le {value digits : Nat} (nonzero : 0 < digits)
    (bounded : value < 10 ^ digits) : (decimal value).utf8ByteSize ≤ digits := by
  have single : ∀ char ∈ (decimal value).toList, char.utf8Size = 1 :=
    fun char shown => utf8Size_of_isDigit (isDigit_of_mem_decimal shown)
  have size_eq := Bytes.length_ofText_ofList single
  rw [String.ofList_toList, Bytes.length_ofText, String.length_toList] at size_eq
  rw [size_eq]
  exact Nat.repr_length value digits nonzero bounded

/-! ## Headings -/

/-- The heading of an action with a number among so many. -/
def headingLabel (number count : Nat) : String :=
  if count = 1 then "Action" else "Action " ++ decimal number ++ "/" ++ decimal count

/-- Words have at most ten digits, so there is room for two of them in a heading. -/
theorem utf8ByteSize_headingLabel_le {number count : Nat} (number_le : number ≤ count)
    (fits : Borsh.FitsWord count) :
    (headingLabel number count).utf8ByteSize ≤ maxLabelSize := by
  have count_lt : count < 10 ^ 10 := Nat.lt_of_lt_of_le fits (by decide)
  have number_size : (decimal number).utf8ByteSize ≤ 10 :=
    utf8ByteSize_decimal_le (by decide) (Nat.lt_of_le_of_lt number_le count_lt)
  have count_size : (decimal count).utf8ByteSize ≤ 10 :=
    utf8ByteSize_decimal_le (by decide) count_lt
  rw [headingLabel, maxLabelSize]
  split
  · decide
  · have front_size : "Action ".utf8ByteSize = 7 := rfl
    have slash_size : "/".utf8ByteSize = 1 := rfl
    simp only [String.utf8ByteSize_append, front_size, slash_size]
    omega

/-- Behind a place in a list of so many there is no overflow. -/
theorem toNat_succ_of_lt {index count : UInt32} (inside : index < count) :
    (index + 1).toNat = index.toNat + 1 :=
  Borsh.FitsWord.toNat_add_one
    (Nat.lt_of_le_of_lt (UInt32.lt_iff_toNat_lt.mp inside) count.toNat_lt)

/-- The numbers in a heading are the place in the list, from one on, and the length
of the list. -/
theorem actionLabel_eq {index count : UInt32} (inside : index < count) :
    actionLabel index count = headingLabel (index.toNat + 1) count.toNat := by
  have one_iff : count = 1 ↔ count.toNat = 1 := by
    rw [← UInt32.toNat_inj, UInt32.toNat_one]
  simp only [actionLabel, headingLabel, one_iff, toNat_succ_of_lt inside]

/-- The heading of an action is stored in full, whatever its number is. -/
theorem make_actionLabel {index count : UInt32} (inside : index < count) (value : String) :
    Entry.make (actionLabel index count) value =
      Entry.uncut (headingLabel (index.toNat + 1) count.toNat, value) := by
  rw [actionLabel_eq inside]
  exact Entry.make_eq_uncut
    (utf8ByteSize_headingLabel_le (UInt32.lt_iff_toNat_lt.mp inside) count.toNat_lt)

theorem head?_headingLabel (number count : Nat) :
    (headingLabel number count).toList.head? = some 'A' := by
  rw [headingLabel]
  split
  · rfl
  · rw [String.append_assoc, String.append_assoc, String.toList_append]
    rfl

theorem headingLabel_ne {number count : Nat} {text : String}
    (other : text.toList.head? ≠ some 'A') : headingLabel number count ≠ text := by
  rintro rfl
  exact other (head?_headingLabel number count)

/-! ## What decides on the labels -/

/-- The labels of the entries that show an action of a kind, without those that
show the permission of a key. -/
def ActionKind.labels : ActionKind → List String
  | createAccount => []
  | deployContract => ["Code size", "Code hash"]
  | functionCall => ["Method", "Args", "Gas", "Deposit (yoctoNEAR)"]
  | transfer => ["Amount (yoctoNEAR)"]
  | stake => ["Stake (yoctoNEAR)", "Validator key"]
  | addKey => ["Public key", "Key nonce"]
  | deleteKey => ["Public key"]
  | deleteAccount => ["Beneficiary"]

/-- The labels of the entries that show a permission of a kind. -/
def PermissionKind.labels : PermissionKind → List String
  | functionCall => ["Permission", "Allowance (yoctoNEAR)", "Contract", "Methods"]
  | fullAccess => ["Permission", "Danger"]

/-- The kind of the permission of the key that an action adds. -/
def Action.permissionKind? {Names : Type} : Action Names → Option PermissionKind
  | addKey _ accessKey => some accessKey.permission.kind
  | _ => none

/-- Whether the action adds a key that may be used for everything. -/
def Action.grantsFullAccess {Names : Type} (action : Action Names) : Bool :=
  action.permissionKind? == some .fullAccess

/-- What of an action decides on the labels of its entries: its kind and, for a key
that is added, the kind of its permission. -/
structure Outline where
  kind : ActionKind
  permission? : Option PermissionKind
deriving DecidableEq, Repr

namespace Outline

/-- The outline of an action. -/
def ofAction {Names : Type} (action : Action Names) : Outline where
  kind := action.kind
  permission? := action.permissionKind?

/-- The labels of the entries behind the heading. -/
def labels (outline : Outline) : List String :=
  outline.kind.labels ++ outline.permission?.elim [] PermissionKind.labels

end Outline

/-- The labels of the plan of actions with the given outlines. -/
def planLabels (outlines : List Outline) : List String :=
  ["From", "To"] ++ (if outlines.length = 1 then [] else ["Actions"]) ++
    (outlines.zipIdx 1).flatMap fun (outline, number) =>
      headingLabel number outlines.length :: outline.labels

theorem Action.labels_contents (action : Action MethodNames) :
    action.contents.map Prod.fst = (Outline.ofAction action).labels := by
  cases action with
  | addKey publicKey accessKey =>
      rcases accessKey with ⟨nonce, permission⟩
      cases permission <;> rfl
  | _ => rfl

theorem Outline.ofAction_map {Names Other : Type} (change : Names → Other)
    (action : Action Names) : ofAction (action.map change) = ofAction action := by
  cases action with
  | addKey publicKey accessKey =>
      rcases accessKey with ⟨nonce, permission⟩
      cases permission <;> rfl
  | _ => rfl

namespace Outline

theorem utf8ByteSize_le (outline : Outline) :
    ∀ label ∈ outline.labels, label.utf8ByteSize ≤ maxLabelSize := by
  rcases outline with ⟨kind, _ | permission⟩
  · cases kind <;> decide
  · cases kind <;> cases permission <;> decide

theorem count_danger (outline : Outline) :
    outline.labels.count "Danger" = if outline.permission? == some .fullAccess then 1 else 0 := by
  rcases outline with ⟨kind, _ | permission⟩
  · cases kind <;> decide
  · cases kind <;> cases permission <;> decide

/-- There are as many warnings as keys with full access. -/
theorem count_danger_flatMap (outlines : List Outline) (number count : Nat) :
    ((outlines.zipIdx number).flatMap fun (outline, number) =>
        headingLabel number count :: outline.labels).count "Danger" =
      outlines.countP (·.permission? == some .fullAccess) := by
  induction outlines generalizing number with
  | nil => rfl
  | cons outline others ih =>
      have heading_ne : headingLabel number count ≠ "Danger" := headingLabel_ne (by decide)
      rw [List.zipIdx_cons, List.flatMap_cons, List.count_append, ih,
        List.count_cons_of_ne heading_ne, count_danger, List.countP_cons, Nat.add_comm]

end Outline

theorem count_danger_planLabels (outlines : List Outline) :
    (planLabels outlines).count "Danger" =
      outlines.countP (·.permission? == some .fullAccess) := by
  have front_eq : (["From", "To"] ++ if outlines.length = 1 then [] else ["Actions"]).count
      "Danger" = 0 := by
    split <;> decide
  rw [planLabels, List.count_append, front_eq, Outline.count_danger_flatMap, Nat.zero_add]

/-! ## The entries of a plan -/

/-- The entries that show an action with a number among so many. -/
def Action.block (action : Action (List String)) (number count : Nat) : List Entry :=
  Entry.uncut (headingLabel number count, action.kind.name) ::
    (action.map MethodNames.ofList).contents.map Entry.uncut

/-- The entries in front of those that show the actions. -/
def Transaction.opening (transaction : Transaction) : List Entry :=
  [⟨"From", transaction.signer⟩, ⟨"To", transaction.receiver⟩] ++
    if transaction.actions.length = 1 then []
    else [⟨"Actions", decimal transaction.actions.length⟩]

theorem Action.labels_block (action : Action (List String)) (number count : Nat) :
    (action.block number count).map Entry.label =
      headingLabel number count :: (Outline.ofAction action).labels := by
  rw [block, List.map_cons, List.map_map, ← Outline.ofAction_map MethodNames.ofList,
    ← labels_contents]
  rfl

/-- The entries of an action are stored with their labels in full. -/
theorem Field.entries_action {index count : UInt32} (inside : index < count)
    (action : Action (List String)) :
    (Plan.ofFields [.action index count (action.map MethodNames.ofList)]).entries =
      action.block (index.toNat + 1) count.toNat := by
  have short : ∀ content ∈ (action.map MethodNames.ofList).contents,
      content.1.utf8ByteSize ≤ maxLabelSize := by
    intro content member
    apply (Outline.ofAction (action.map MethodNames.ofList)).utf8ByteSize_le
    rw [← Action.labels_contents]
    exact List.mem_map_of_mem member
  have behind := Plan.entries_ofList_of_short short
  rw [Plan.ofFields, List.flatMap_singleton, contents, Action.kind_map, Action.block, ← behind,
    ← make_actionLabel inside]
  rfl

theorem Field.entries_ofActions {count index : UInt32} {actions : List (Action (List String))}
    (inside : index.toNat + actions.length ≤ count.toNat) :
    (Plan.ofFields (ofActions count index actions)).entries =
      (actions.zipIdx (index.toNat + 1)).flatMap fun (effect, number) =>
        effect.block number count.toNat := by
  induction actions generalizing index with
  | nil => rfl
  | cons action others ih =>
      rw [List.length_cons] at inside
      have present : index < count := UInt32.lt_iff_toNat_lt.mpr (by omega)
      have next_eq := toNat_succ_of_lt present
      have rest_inside : (index + 1).toNat + others.length ≤ count.toNat := by omega
      have behind := ih rest_inside
      rw [ofActions, ← List.singleton_append, Plan.entries_ofFields_append,
        entries_action present, behind, next_eq, List.zipIdx_cons, List.flatMap_cons]

theorem Transaction.entries_opening (transaction : Transaction) {count : UInt32}
    (count_eq : count.toNat = transaction.actions.length) :
    (Plan.ofFields [.signer transaction.signer, .signerKey transaction.signerKey,
      .nonce transaction.nonce, .receiver transaction.receiver,
      .blockHash transaction.blockHash, .actionCount count]).entries = transaction.opening := by
  have one_iff : count = 1 ↔ transaction.actions.length = 1 := by
    rw [← UInt32.toNat_inj, count_eq, UInt32.toNat_one]
  simp only [Plan.ofFields, List.flatMap_cons, List.flatMap_nil, Field.contents, opening,
    one_iff, count_eq]
  split <;> exact Plan.entries_ofList_of_short (by simp; decide)

/-- The plan of a transaction shows its accounts, the number of actions unless it is
one, and then each of the actions. -/
theorem Transaction.entries_plan {transaction : Transaction} (fits : transaction.Fits) :
    (decode transaction.encode).plan.entries =
      transaction.opening ++ (transaction.actions.zipIdx 1).flatMap fun (action, number) =>
        action.block number transaction.actions.length := by
  have count_eq : (UInt32.ofNat transaction.actions.length).toNat = transaction.actions.length :=
    UInt32.toNat_ofNat_of_lt' fits.count
  have inside : (0 : UInt32).toNat + transaction.actions.length ≤
      (UInt32.ofNat transaction.actions.length).toNat := by
    rw [count_eq, UInt32.toNat_zero, Nat.zero_add]
  have front := transaction.entries_opening count_eq
  have behind := Field.entries_ofActions inside
  rw [count_eq] at behind
  rw [plan_decode fits, fields, Plan.entries_ofFields_append, front, behind]
  rfl

/-! ## Warnings -/

namespace Entry

/-- The entry that shows full access. -/
def fullAccess : Entry where
  label := "Permission"
  value := "Full access"

/-- The entry that warns of full access. -/
def danger : Entry where
  label := "Danger"
  value := "This gives full access to a device other than Ledger"

end Entry

/-- Entries among which those that show full access, and only those, have a warning
behind them. -/
inductive Warned : List Entry → Prop
  | nil : Warned []
  | plain {entry : Entry} {others : List Entry} (silent : entry.label ≠ "Danger")
      (limited : entry ≠ .fullAccess) (warned : Warned others) : Warned (entry :: others)
  | danger {others : List Entry} (warned : Warned others) :
      Warned (.fullAccess :: .danger :: others)

namespace Warned

theorem append {first second : List Entry} (warned : Warned first) (behind : Warned second) :
    Warned (first ++ second) := by
  induction warned with
  | nil => exact behind
  | plain silent limited _ ih => exact .plain silent limited ih
  | danger _ ih => exact .danger ih

theorem flatMap {α : Type} {entries : α → List Entry} (warned : ∀ part, Warned (entries part))
    (parts : List α) : Warned (parts.flatMap entries) := by
  induction parts with
  | nil => exact .nil
  | cons part others ih => exact (warned part).append ih

/-- Entries with labels of other kinds are not concerned. -/
theorem of_labels {entries : List Entry} (silent : "Danger" ∉ entries.map Entry.label)
    (limited : "Permission" ∉ entries.map Entry.label) : Warned entries := by
  induction entries with
  | nil => exact .nil
  | cons entry others ih =>
      rw [List.map_cons, List.mem_cons, not_or] at silent limited
      have entry_ne : entry ≠ .fullAccess := by
        rintro rfl
        exact limited.1 rfl
      exact .plain (Ne.symm silent.1) entry_ne (ih silent.2 limited.2)

theorem first_ne_danger {entries : List Entry} (warned : Warned entries) :
    (entries.map Entry.label)[0]? ≠ some "Danger" := by
  cases warned with
  | nil => exact nofun
  | plain silent limited warned => exact fun same => silent (Option.some.inj same)
  | danger warned => exact fun same => absurd (Option.some.inj same) (by decide)

/-- A warning stands directly behind full access and nowhere else. -/
theorem danger_iff {entries : List Entry} (warned : Warned entries) (index : Nat) :
    (entries.map Entry.label)[index + 1]? = some "Danger" ↔
      entries[index]? = some .fullAccess := by
  -- What follows an entry or a warning starts with no warning of its own.
  induction warned generalizing index with
  | nil => simp
  | @plain entry others silent limited warned ih =>
      cases index with
      | zero => exact iff_of_false warned.first_ne_danger fun same => limited (Option.some.inj same)
      | succ index => exact ih index
  | @danger others warned ih =>
      match index with
      | 0 => exact iff_of_true rfl rfl
      | 1 =>
          have differ : Entry.danger ≠ .fullAccess := by decide
          exact iff_of_false warned.first_ne_danger fun same => differ (Option.some.inj same)
      | index + 2 => exact ih index

end Warned

theorem Permission.warned_contents (permission : Permission MethodNames) :
    Warned (permission.contents.map Entry.uncut) := by
  cases permission with
  | functionCall allowance receiver methods =>
      exact .plain (by decide) (by decide)
        (.of_labels (by simp [Entry.uncut]) (by simp [Entry.uncut]))
  | fullAccess => exact .danger .nil

theorem Action.warned_contents (action : Action MethodNames) :
    Warned (action.contents.map Entry.uncut) := by
  cases action with
  | addKey publicKey accessKey =>
      have key : Warned ([("Public key", publicKey.text),
          ("Key nonce", decimal accessKey.nonce.toNat)].map Entry.uncut) :=
        .of_labels (by simp [Entry.uncut]) (by simp [Entry.uncut])
      exact key.append accessKey.permission.warned_contents
  | _ => exact .of_labels (by simp [contents, Entry.uncut]) (by simp [contents, Entry.uncut])

theorem Action.warned_block (action : Action (List String)) (number count : Nat) :
    Warned (action.block number count) := by
  have heading_ne : Entry.uncut (headingLabel number count, action.kind.name) ≠ .fullAccess :=
    fun same => headingLabel_ne (by decide) (congrArg Entry.label same)
  exact .plain (headingLabel_ne (by decide)) heading_ne (warned_contents _)

theorem Transaction.warned_opening (transaction : Transaction) : Warned transaction.opening := by
  rw [opening]
  split <;> exact .of_labels (by simp) (by simp)

theorem Transaction.warned_plan {transaction : Transaction} (fits : transaction.Fits) :
    Warned (decode transaction.encode).plan.entries := by
  rw [entries_plan fits]
  exact transaction.warned_opening.append
    (.flatMap (fun (action, number) => action.warned_block number _) _)

/-- The warning of full access ends the entries of an action that grants it. -/
theorem Action.block_of_grantsFullAccess {action : Action (List String)}
    (grants : action.grantsFullAccess = true) (number count : Nat) :
    ∃ front, action.block number count = front ++ [.fullAccess, .danger] ∧
      "Danger" ∉ front.map Entry.label := by
  cases action with
  | addKey publicKey accessKey =>
      rcases accessKey with ⟨nonce, permission⟩
      cases permission with
      | functionCall allowance receiver methods => cases grants
      | fullAccess =>
          have heading_ne : headingLabel number count ≠ "Danger" := headingLabel_ne (by decide)
          refine ⟨[⟨headingLabel number count, "Add Key"⟩, ⟨"Public key", publicKey.text⟩,
            ⟨"Key nonce", decimal nonce.toNat⟩], rfl, ?_⟩
          simp [Ne.symm heading_ne]
  | _ => cases grants

/-- There is no warning among the entries of any other action. -/
theorem Action.block_of_not_grantsFullAccess {action : Action (List String)}
    (withheld : ¬action.grantsFullAccess = true) (number count : Nat) :
    "Danger" ∉ (action.block number count).map Entry.label := by
  have heading_ne : headingLabel number count ≠ "Danger" := headingLabel_ne (by decide)
  have none_eq : (Outline.ofAction action).labels.count "Danger" = 0 :=
    (Outline.ofAction action).count_danger.trans (if_neg withheld)
  rw [labels_block, ← List.count_eq_zero, List.count_cons_of_ne heading_ne, none_eq]

namespace Transaction

theorem labels_opening (transaction : Transaction) :
    transaction.opening.map Entry.label =
      ["From", "To"] ++ if transaction.actions.length = 1 then [] else ["Actions"] := by
  rw [opening]
  split <;> rfl

theorem labels_plan {transaction : Transaction} (fits : transaction.Fits) :
    (decode transaction.encode).plan.labels =
      planLabels (transaction.actions.map Outline.ofAction) := by
  rw [Plan.labels, entries_plan fits, List.map_append, labels_opening, List.map_flatMap,
    planLabels, List.length_map, List.zipIdx_map, List.flatMap_map]
  simp only [Action.labels_block]
  rfl

/-- Labels and warnings are beyond the reach of what a transaction says.  For every
transaction that is accepted the labels of the plan follow from the kinds of its
actions, in their order, and the kinds of the permissions that these give; every
heading is stored in full, and in the place of its action.  A warning is shown
directly behind full access, in the entries of the action that grants it, once for
each such action, and nowhere else. -/
theorem labels_and_warnings_cannot_be_forged :
    (∀ octets : Bytes, (decode octets).result = .ok () →
      ∃ transaction : Transaction, transaction.Fits ∧ octets = transaction.encode ∧
        let plan := (decode octets).plan
        let actions := transaction.actions
        plan.labels = planLabels (actions.map Outline.ofAction) ∧
        plan.entries = transaction.opening ++ (actions.zipIdx 1).flatMap (fun (action, number) =>
          action.block number actions.length) ∧
        plan.labels.count "Danger" = actions.countP Action.grantsFullAccess ∧
        ∀ index, plan.labels[index + 1]? = some "Danger" ↔
          plan.get? index = some ⟨"Permission", "Full access"⟩) ∧
    (∀ first second : Transaction, first.Fits → second.Fits →
      first.actions.map Outline.ofAction = second.actions.map Outline.ofAction →
        (decode first.encode).plan.labels = (decode second.encode).plan.labels) ∧
    (∀ (index count : UInt32) (value : String), index < count →
      (Entry.make (actionLabel index count) value).label =
        headingLabel (index.toNat + 1) count.toNat) ∧
    (∀ (action : Action (List String)) (number count : Nat),
      (action.block number count).map Entry.label =
        headingLabel number count :: (Outline.ofAction action).labels ∧
      (action.grantsFullAccess = true → ∃ front,
        action.block number count = front ++ [.fullAccess, .danger] ∧
          "Danger" ∉ front.map Entry.label) ∧
      (¬action.grantsFullAccess = true →
        "Danger" ∉ (action.block number count).map Entry.label)) := by
  constructor
  · intro octets accepted
    rcases exists_of_decode_ok accepted with ⟨transaction, fits, rfl, _⟩
    refine ⟨transaction, fits, rfl, labels_plan fits, entries_plan fits, ?_,
      (warned_plan fits).danger_iff⟩
    rw [labels_plan fits, count_danger_planLabels, List.countP_map]
    rfl
  constructor
  · intro first second firstFits secondFits same
    rw [labels_plan firstFits, labels_plan secondFits, same]
  constructor
  · intro index count value inside
    rw [make_actionLabel inside, Entry.uncut]
  · intro action number count
    exact ⟨action.labels_block number count,
      fun grants => Action.block_of_grantsFullAccess grants number count,
      fun withheld => Action.block_of_not_grantsFullAccess withheld number count⟩

/-- A transaction whose texts are those of labels and warnings. -/
def misleading : Transaction where
  signer := "Danger"
  signerKey := { kind := .ed25519, data := Vector.replicate 32 7 }
  nonce := 1
  receiver := "Permission"
  blockHash := Vector.replicate 32 9
  actions :=
    [.deleteAccount "Danger",
    .addKey { kind := .ed25519, data := Vector.replicate 32 1 }
      { nonce := 3, permission := .fullAccess },
    .addKey { kind := .ed25519, data := Vector.replicate 32 2 }
      { nonce := 3, permission := .functionCall none "Full access" ["Permission", "Danger"] }]

theorem labels_and_warnings_of_misleading :
    let plan := (decode misleading.encode).plan
    let plain : Transaction :=
      { misleading with
        signer := "alice.near"
        actions := .deleteAccount "bob.near" :: misleading.actions.tail }
    plan.labels =
      ["From", "To", "Actions", "Action 1/3", "Beneficiary", "Action 2/3", "Public key",
        "Key nonce", "Permission", "Danger", "Action 3/3", "Public key", "Key nonce",
        "Permission", "Allowance (yoctoNEAR)", "Contract", "Methods"] ∧
    plan.labels.count "Danger" = 1 ∧ plan.get? 8 = some ⟨"Permission", "Full access"⟩ ∧
    (decode plain.encode).plan.labels = plan.labels ∧
    (Entry.make (actionLabel 0xFFFFFFFD 0xFFFFFFFF) "Transfer").label =
      "Action 4294967294/4294967295" := by
  intro plan plain
  have fits : misleading.Fits := by decide
  have plainFits : plain.Fits := by decide
  have accepted := (decode_eq_fields_iff fits).mpr rfl
  obtain ⟨shown, same, full, _⟩ := labels_and_warnings_cannot_be_forged
  obtain ⟨transaction, otherFits, octets_eq, labels_eq, _, count_eq, danger_iff⟩ :=
    shown misleading.encode (by rw [accepted])
  obtain rfl := fields_injective fits otherFits
    (congrArg Decoded.fields (accepted.symm.trans ((decode_eq_fields_iff otherFits).mpr octets_eq)))
  have labels : plan.labels = _ := labels_eq
  refine ⟨labels.trans (by decide +kernel), count_eq.trans rfl, ?_, same _ _ plainFits fits rfl,
    (full _ _ _ (by decide)).trans (by decide +kernel)⟩
  refine (danger_iff 8).mp ?_
  rw [labels_eq]
  decide +kernel

end Transaction

end NearSigner
