import Mathlib.Data.List.Basic
import NearSigner.Proofs.Review.Values
import NearSigner.Proofs.Transaction.Exact

/-!
# Restrictions as they are shown

The names of the methods to which a key is restricted are shown in one line, with
a comma and a space between them.  A name may itself hold that separator, and the
word that stands for no restriction may be a name, so the line does not tell all
lists of names apart.  It tells the pieces between the separators, and no more is
lost than which of them belong to one name.
-/

namespace NearSigner

open Borsh

namespace MethodNames

/-- What stands between two names. -/
def separator : List Char := [',', ' ']

/-- The pieces of a text between its separators. -/
def pieces : List Char → List (List Char)
  | [] => [[]]
  | ',' :: ' ' :: rest => [] :: pieces rest
  | char :: rest => (pieces rest).modifyHead (char :: ·)

/-- The names that a list is shown as: the list of no names is shown as one. -/
def listed : List String → List String
  | [] => ["Any"]
  | names => names

/-- The pieces of the line in which a list of names is shown. -/
def shownPieces (names : List String) : List (List Char) :=
  (listed names).flatMap fun name => pieces name.toList

/-! ## Pieces of a text -/

theorem pieces_ne_nil (text : List Char) : pieces text ≠ [] := by
  fun_induction pieces text with
  | case1 => exact List.cons_ne_nil _ _
  | case2 rest ih => exact List.cons_ne_nil _ _
  | case3 char rest other ih => exact fun none => ih (List.modifyHead_eq_nil_iff.mp none)

theorem intercalate_modifyHead {texts : List (List Char)} (nonempty : texts ≠ []) (char : Char) :
    separator.intercalate (texts.modifyHead (char :: ·)) =
      char :: separator.intercalate texts := by
  rcases texts with _ | ⟨text, _ | ⟨next, others⟩⟩
  · exact absurd rfl nonempty
  · simp only [List.modifyHead_cons, List.intercalate_singleton]
  · simp only [List.modifyHead_cons, List.intercalate_cons_cons, List.cons_append]

/-- A text is put together again from its pieces. -/
theorem intercalate_pieces (text : List Char) : separator.intercalate (pieces text) = text := by
  fun_induction pieces text with
  | case1 => rfl
  | case2 rest ih =>
      rw [List.intercalate_cons_of_ne_nil (pieces_ne_nil rest), ih]
      rfl
  | case3 char rest other ih => rw [intercalate_modifyHead (pieces_ne_nil rest), ih]

/-- A separator behind a text cuts it off. -/
theorem pieces_append_separator (text rest : List Char) :
    pieces (text ++ separator ++ rest) = pieces text ++ pieces rest := by
  fun_induction pieces text with
  | case1 => rfl
  | case2 others ih => simp only [List.cons_append, pieces, ih]
  | case3 char others other ih =>
      -- The text and the separator behind it do not make up another separator.
      have unbroken : ∀ behind, char = ',' → others ++ separator ++ rest = ' ' :: behind →
          False := by
        intro behind comma space
        cases others with
        | nil => cases space
        | cons next others => exact other others comma (by rw [(List.cons.inj space).1])
      rcases split : pieces others with _ | ⟨piece, next⟩
      · exact absurd split (pieces_ne_nil others)
      · rw [split] at ih
        rw [List.cons_append, List.cons_append, pieces, ih]
        · rfl
        · exact unbroken

/-- A line has the pieces of the texts that are joined in it. -/
theorem pieces_intercalate {texts : List (List Char)} (nonempty : texts ≠ []) :
    pieces (separator.intercalate texts) = texts.flatMap pieces := by
  induction texts with
  | nil => exact absurd rfl nonempty
  | cons text others ih =>
      cases others with
      | nil => simp
      | cons next others =>
          rw [List.intercalate_cons_cons, pieces_append_separator, ih (List.cons_ne_nil _ _),
            ← List.flatMap_cons]

/-- A text without a separator is in one piece. -/
theorem pieces_of_plain {text : List Char} (plain : ¬separator <:+: text) :
    pieces text = [text] := by
  fun_induction pieces text with
  | case1 => rfl
  | case2 rest ih => exact absurd (List.prefix_append separator rest).isInfix plain
  | case3 char rest other ih =>
      rw [ih fun inside => plain (inside.trans (List.suffix_cons char rest).isInfix)]
      rfl

/-! ## The line that shows a list -/

theorem listed_ne_nil (names : List String) : listed names ≠ [] := by
  cases names <;> exact List.cons_ne_nil _ _

theorem isEmpty_ofList_cons {name : String} {others : List String}
    (fits : FitsWord (name :: others).length) : (ofList (name :: others)).isEmpty = false := by
  rw [isEmpty, beq_eq_false_iff_ne]
  intro none
  have length_eq := congrArg UInt32.toNat none
  rw [ofList, UInt32.toNat_ofNat_of_lt' fits] at length_eq
  exact Nat.succ_ne_zero _ length_eq

theorem shown_ofList {names : List String} (fit : NamesFit names) :
    (ofList names).shown = String.intercalate ", " (listed names) := by
  cases names with
  | nil => rfl
  | cons name others =>
      rw [shown, isEmpty_ofList_cons fit.count, names_ofList fit]
      rfl

theorem pieces_shown {names : List String} (fit : NamesFit names) :
    pieces (ofList names).shown.toList = shownPieces names := by
  have joined : (ofList names).shown.toList =
      separator.intercalate ((listed names).map String.toList) := by
    rw [shown_ofList fit, String.toList_intercalate]
    rfl
  have nonempty : (listed names).map String.toList ≠ [] :=
    fun none => listed_ne_nil names (List.map_eq_nil_iff.mp none)
  rw [joined, pieces_intercalate nonempty, List.flatMap_map]
  rfl

/-- Lists are shown alike exactly when they have the same pieces. -/
theorem shown_eq_iff {names others : List String} (fit : NamesFit names)
    (otherFit : NamesFit others) :
    (ofList names).shown = (ofList others).shown ↔ shownPieces names = shownPieces others := by
  rw [← pieces_shown fit, ← pieces_shown otherFit]
  constructor
  · intro alike
    rw [alike]
  · intro same
    apply String.toList_inj.mp
    rw [← intercalate_pieces (ofList names).shown.toList, same, intercalate_pieces]

/-- A list that is shown as no restriction is empty, or it is the name that stands
for none. -/
theorem eq_of_shownPieces_nil {names : List String} (same : shownPieces names = shownPieces []) :
    names = [] ∨ names = ["Any"] := by
  cases names with
  | nil => exact .inl rfl
  | cons name others =>
      right
      change pieces name.toList ++ others.flatMap (fun name => pieces name.toList) =
        ["Any".toList] at same
      obtain ⟨first, none⟩ : pieces name.toList = ["Any".toList] ∧
          others.flatMap (fun name => pieces name.toList) = [] := by
        rcases List.append_eq_singleton_iff.mp same with ⟨empty, _⟩ | whole
        · exact absurd empty (pieces_ne_nil _)
        · exact whole
      obtain rfl : others = [] := by
        apply List.eq_nil_iff_forall_not_mem.mpr
        intro other member
        exact pieces_ne_nil _ (List.flatMap_eq_nil_iff.mp none other member)
      have name_eq : name.toList = "Any".toList := by
        rw [← intercalate_pieces name.toList, first, List.intercalate_singleton]
      rw [String.toList_inj.mp name_eq]

theorem plain_listed {names : List String}
    (plain : ∀ name ∈ names, ¬separator <:+: name.toList) :
    ∀ name ∈ listed names, ¬separator <:+: name.toList := by
  cases names with
  | nil =>
      intro name member
      obtain rfl := List.mem_singleton.mp member
      decide
  | cons name others => exact plain

/-- Names without a separator are the pieces of the line that shows them. -/
theorem shownPieces_of_plain {names : List String}
    (plain : ∀ name ∈ names, ¬separator <:+: name.toList) :
    shownPieces names = (listed names).map String.toList := by
  rw [shownPieces, List.map_eq_flatMap]
  exact List.flatMap_congr fun name member => pieces_of_plain (plain_listed plain name member)

/-- Lists that are shown as one another differ in nothing but the name that stands for
no restriction. -/
theorem eq_of_listed_eq {names others : List String} (same : listed names = listed others) :
    names = others ∨ (names = [] ∧ others = ["Any"]) ∨ (others = [] ∧ names = ["Any"]) := by
  cases names with
  | nil =>
      cases others with
      | nil => exact .inl rfl
      | cons other more => exact .inr (.inl ⟨rfl, same.symm⟩)
  | cons name names =>
      cases others with
      | nil => exact .inr (.inr ⟨rfl, same⟩)
      | cons other more => exact .inl same

end MethodNames

/-! ## Permissions that the decoder accepts -/

theorem Field.exists_of_action_mem_ofActions {index count first total : UInt32}
    {actions : List (Action (List String))} {action : Action MethodNames}
    (member : .action index count action ∈ ofActions total first actions) :
    ∃ source ∈ actions, action = source.map MethodNames.ofList := by
  induction actions generalizing first with
  | nil => cases member
  | cons source others ih =>
      rcases List.mem_cons.mp member with same | behind
      · cases same
        exact ⟨source, List.mem_cons_self, rfl⟩
      · rcases ih behind with ⟨other, present, action_eq⟩
        exact ⟨other, List.mem_cons_of_mem _ present, action_eq⟩

namespace Permission

/-- The permission is that of a key which is added by a transaction that the decoder
accepts. -/
def Accepted (permission : Permission MethodNames) : Prop :=
  ∃ (bytes : Bytes) (index count : UInt32) (publicKey : PublicKey) (nonce : UInt64),
    (Transaction.decode bytes).result = .ok () ∧
      Field.action index count (.addKey publicKey { nonce, permission }) ∈
        (Transaction.decode bytes).fields

/-- The value of the review field for the methods of a permission. -/
def shownMethods (permission : Permission MethodNames) : Option String :=
  (Plan.ofList permission.contents).find? "Methods"

theorem shownMethods_functionCall (allowance : Option Amount) (receiver : String)
    (methods : MethodNames) :
    (functionCall allowance receiver methods).shownMethods = some methods.shown :=
  rfl

/-- A transaction that adds a key with a permission, and does nothing else. -/
def addedBy (permission : Permission (List String)) : Transaction where
  signer := "alice.near"
  signerKey := { kind := .ed25519, data := Vector.replicate 32 7 }
  nonce := 1
  receiver := "alice.near"
  blockHash := Vector.replicate 32 9
  actions :=
    [.addKey { kind := .ed25519, data := Vector.replicate 32 1 } { nonce := 0, permission }]

theorem fits_addedBy {permission : Permission (List String)} (fits : permission.Fits) :
    (addedBy permission).Fits where
  signer := (by decide : TextFits "alice.near")
  receiver := (by decide : TextFits "alice.near")
  count := (by decide : FitsWord 1)
  each action member := by
    obtain rfl := List.mem_singleton.mp member
    exact fits

/-- The decoder accepts the permissions whose lengths can all be written. -/
theorem accepted_iff {permission : Permission MethodNames} :
    permission.Accepted ↔
      ∃ source : Permission (List String), source.Fits ∧
        permission = source.map MethodNames.ofList := by
  constructor
  · rintro ⟨bytes, index, count, publicKey, nonce, accepted, member⟩
    rcases Transaction.exists_of_decode_ok accepted with ⟨transaction, fits, _, fields_eq⟩
    rw [fields_eq] at member
    have behind : Field.action index count (.addKey publicKey { nonce, permission }) ∈
        Field.ofActions (UInt32.ofNat transaction.actions.length) 0 transaction.actions := by
      simpa [Transaction.fields] using member
    rcases Field.exists_of_action_mem_ofActions behind with ⟨action, present, action_eq⟩
    cases action with
    | addKey key accessKey =>
        cases action_eq
        exact ⟨accessKey.permission, fits.each _ present, rfl⟩
    | _ => cases action_eq
  · rintro ⟨source, fits, rfl⟩
    have decoded := (Transaction.decode_eq_fields_iff (fits_addedBy fits)).mpr rfl
    refine ⟨(addedBy source).encode, 0, 1, { kind := .ed25519, data := Vector.replicate 32 1 }, 0,
      by rw [decoded], ?_⟩
    rw [decoded]
    exact List.mem_append_right _ List.mem_cons_self

theorem Accepted.exists_names {allowance : Option Amount} {receiver : String}
    {methods : MethodNames} (accepted : (functionCall allowance receiver methods).Accepted) :
    ∃ names, MethodNames.NamesFit names ∧ methods = MethodNames.ofList names := by
  rcases accepted_iff.mp accepted with ⟨source, fits, source_eq⟩
  cases source with
  | functionCall _ _ names =>
      cases source_eq
      exact ⟨names, fits.2, rfl⟩
  | fullAccess => cases source_eq

/-- The permission to call some methods of a contract. -/
def restrictedTo (names : List String) : Permission MethodNames :=
  .functionCall none "app.near" (.ofList names)

theorem accepted_restrictedTo {names : List String} (fit : MethodNames.NamesFit names) :
    (restrictedTo names).Accepted :=
  accepted_iff.mpr ⟨.functionCall none "app.near" names, ⟨by decide, fit⟩, rfl⟩

theorem shownMethods_restrictedTo_eq {names others : List String}
    (fit : MethodNames.NamesFit names) (otherFit : MethodNames.NamesFit others)
    (same : MethodNames.shownPieces names = MethodNames.shownPieces others) :
    (restrictedTo names).shownMethods = (restrictedTo others).shownMethods := by
  rw [restrictedTo, restrictedTo, shownMethods_functionCall, shownMethods_functionCall,
    (MethodNames.shown_eq_iff fit otherFit).mpr same]

open MethodNames in
/-- The review field for the methods of an added key shows the names in one line, and
`Any` when there are none.  The fields of two keys are alike exactly when the lists of
names are the same piece by piece.  So lists that differ are told apart when no name
holds a separator, unless one of them is empty and the other is the one name `Any`;
and that name alone is shown as no restriction. -/
theorem restrictions_shown_alike_iff {allowance otherAllowance : Option Amount}
    {receiver otherReceiver : String} {methods others : MethodNames}
    (accepted : (functionCall allowance receiver methods).Accepted)
    (otherAccepted : (functionCall otherAllowance otherReceiver others).Accepted) :
    let shown := (functionCall allowance receiver methods).shownMethods
    let otherShown := (functionCall otherAllowance otherReceiver others).shownMethods
    shown = some (String.intercalate ", " (listed methods.names)) ∧
    (shown = otherShown ↔ shownPieces methods.names = shownPieces others.names) ∧
    ((∀ name ∈ methods.names ++ others.names, ¬separator <:+: name.toList) →
      methods.names ≠ others.names →
      ¬(methods.names = [] ∧ others.names = ["Any"]) →
      ¬(others.names = [] ∧ methods.names = ["Any"]) → shown ≠ otherShown) ∧
    (others.names = [] → shown = otherShown →
      methods.names = [] ∨ methods.names = ["Any"]) := by
  rcases accepted.exists_names with ⟨names, fit, rfl⟩
  rcases otherAccepted.exists_names with ⟨otherNames, otherFit, rfl⟩
  intro shown otherShown
  have alike : shown = otherShown ↔ shownPieces names = shownPieces otherNames := by
    rw [← shown_eq_iff fit otherFit]
    exact Option.some_inj
  rw [names_ofList fit, names_ofList otherFit]
  constructor
  · rw [← shown_ofList fit]
    exact shownMethods_functionCall _ _ _
  constructor
  · exact alike
  constructor
  · intro plain differ emptyFirst emptyLast same
    have pieces_eq := alike.mp same
    rw [shownPieces_of_plain fun name member => plain name (List.mem_append_left _ member),
      shownPieces_of_plain fun name member => plain name (List.mem_append_right _ member)]
      at pieces_eq
    have listed_eq := List.map_injective_iff.mpr (fun _ _ => String.toList_inj.mp) pieces_eq
    rcases eq_of_listed_eq listed_eq with equal | unlike | unlike
    · exact differ equal
    · exact emptyFirst unlike
    · exact emptyLast unlike
  · rintro rfl same
    exact eq_of_shownPieces_nil (alike.mp same)

/-- Two methods are told apart from one of them, and the text of both in one name is
not. -/
theorem restrictions_to_add_and_vote :
    (restrictedTo ["add", "vote"]).Accepted ∧ (restrictedTo ["add"]).Accepted ∧
    (restrictedTo ["add, vote"]).Accepted ∧
    (restrictedTo ["add", "vote"]).shownMethods = some "add, vote" ∧
    (restrictedTo ["add", "vote"]).shownMethods ≠ (restrictedTo ["add"]).shownMethods ∧
    (restrictedTo ["add", "vote"]).shownMethods =
      (restrictedTo ["add, vote"]).shownMethods := by
  have bothFit : MethodNames.NamesFit ["add", "vote"] := by decide
  have oneFits : MethodNames.NamesFit ["add"] := by decide
  have joinedFits : MethodNames.NamesFit ["add, vote"] := by decide
  have both := accepted_restrictedTo bothFit
  have one := accepted_restrictedTo oneFits
  have joined := accepted_restrictedTo joinedFits
  obtain ⟨shown, apart, _⟩ := restrictions_shown_alike_iff both one
  obtain ⟨_, alike, _⟩ := restrictions_shown_alike_iff both joined
  rw [MethodNames.names_ofList bothFit] at shown apart alike
  rw [MethodNames.names_ofList oneFits] at apart
  rw [MethodNames.names_ofList joinedFits] at alike
  exact ⟨both, one, joined, shown, fun same => absurd (apart.mp same) (by decide),
    alike.mpr (by decide)⟩

/-- Lists of names that differ can be shown alike: the list of no names as that of the
name `Any`, and a list of two names as that of one name with a separator in it. -/
theorem differing_restrictions_look_alike :
    (restrictedTo []).Accepted ∧ (restrictedTo ["Any"]).Accepted ∧
    (restrictedTo []).shownMethods = (restrictedTo ["Any"]).shownMethods ∧
    (restrictedTo ["add", "vote"]).shownMethods = (restrictedTo ["add, vote"]).shownMethods ∧
    ¬∀ (allowance otherAllowance : Option Amount) (receiver otherReceiver : String)
        (methods others : MethodNames),
      (functionCall allowance receiver methods).Accepted →
        (functionCall otherAllowance otherReceiver others).Accepted →
        methods.names ≠ others.names →
        (functionCall allowance receiver methods).shownMethods ≠
          (functionCall otherAllowance otherReceiver others).shownMethods := by
  have noneFit : MethodNames.NamesFit [] := by decide
  have anyFits : MethodNames.NamesFit ["Any"] := by decide
  have unrestricted := accepted_restrictedTo noneFit
  have restricted := accepted_restrictedTo anyFits
  have alike : (restrictedTo []).shownMethods = (restrictedTo ["Any"]).shownMethods :=
    shownMethods_restrictedTo_eq noneFit anyFits rfl
  have joined : (restrictedTo ["add", "vote"]).shownMethods =
      (restrictedTo ["add, vote"]).shownMethods :=
    shownMethods_restrictedTo_eq (by decide) (by decide) rfl
  refine ⟨unrestricted, restricted, alike, joined, fun apart => ?_⟩
  have differ : (MethodNames.ofList []).names ≠ (MethodNames.ofList ["Any"]).names := by
    rw [MethodNames.names_ofList noneFit, MethodNames.names_ofList anyFits]
    exact (List.cons_ne_nil _ _).symm
  exact apart none none "app.near" "app.near" _ _ unrestricted restricted differ alike

end Permission

end NearSigner
