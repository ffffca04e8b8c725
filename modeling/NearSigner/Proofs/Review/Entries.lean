import NearSigner.Proofs.Review.Labels

/-!
# The entries of a plan

However a plan is put together, it has one entry for every label and value that was
pushed, in their order.  A value is stored as it is, and a label up to the first of
its characters for which there is no room.  An entry is found again by its place, and
the first with a label by the label that is stored.
-/

namespace NearSigner

/-! ## Labels that are stored -/

/-- A label is stored as the longest of its initial parts that take at most 32
octets. -/
structure StoredAs (label stored : String) : Prop where
  initial : stored.toList <+: label.toList
  fits : stored.utf8ByteSize ≤ 32
  longest : ∀ other : String, other.toList <+: label.toList → other.utf8ByteSize ≤ 32 →
    other.toList <+: stored.toList

theorem fittingPart_isPrefix (room : Nat) (chars : List Char) :
    fittingPart room chars <+: chars := by
  induction chars generalizing room with
  | nil => exact List.nil_prefix
  | cons char rest ih =>
      rw [fittingPart]
      split
      · exact (List.prefix_cons_inj char).mpr (ih _)
      · exact List.nil_prefix

theorem utf8ByteSize_fittingPart_le (room : Nat) (chars : List Char) :
    (String.ofList (fittingPart room chars)).utf8ByteSize ≤ room := by
  induction chars generalizing room with
  | nil => exact Nat.zero_le _
  | cons char rest ih =>
      rw [fittingPart]
      split
      · rename_i fits
        have behind := ih (room - char.utf8Size)
        rw [utf8ByteSize_ofList_cons]
        omega
      · exact Nat.zero_le _

/-- No initial part that fits is longer. -/
theorem isPrefix_fittingPart {room : Nat} {front chars : List Char} (initial : front <+: chars)
    (fits : (String.ofList front).utf8ByteSize ≤ room) : front <+: fittingPart room chars := by
  -- A character less leaves less room, so the room is not fixed.
  induction chars generalizing room front with
  | nil =>
      rw [List.prefix_nil.mp initial]
      exact List.nil_prefix
  | cons char rest ih =>
      cases front with
      | nil => exact List.nil_prefix
      | cons first others =>
          obtain ⟨rfl, others_initial⟩ := List.cons_prefix_cons.mp initial
          rw [utf8ByteSize_ofList_cons] at fits
          rw [fittingPart, if_pos (by omega)]
          exact (List.prefix_cons_inj first).mpr (ih others_initial (by omega))

theorem storedAs_cutLabel (label : String) : StoredAs label (cutLabel label) where
  initial := by
    rw [cutLabel, String.toList_ofList]
    exact fittingPart_isPrefix _ _
  fits := utf8ByteSize_fittingPart_le _ _
  longest other initial fits := by
    rw [cutLabel, String.toList_ofList]
    exact isPrefix_fittingPart initial (by rwa [String.ofList_toList])

/-- A label is stored in full exactly when there is room for it. -/
theorem cutLabel_eq_self_iff {label : String} :
    cutLabel label = label ↔ label.utf8ByteSize ≤ 32 := by
  constructor
  · intro same
    have fits := (storedAs_cutLabel label).fits
    rwa [same] at fits
  · exact cutLabel_eq_self

/-! ## Entries that are looked up -/

namespace Plan

/-- What is found under a label is the value of the first entry that has it. -/
theorem find?_eq_some_iff {plan : Plan} {label value : String} :
    plan.find? label = some value ↔
      ∃ index, plan.get? index = some ⟨label, value⟩ ∧
        ∀ earlier < index, ∀ entry, plan.get? earlier = some entry → entry.label ≠ label := by
  simp only [find?, get?, Option.map_eq_some_iff, List.find?_eq_some_iff_getElem, beq_iff_eq]
  constructor
  · rintro ⟨⟨_, _⟩, ⟨rfl, index, inside, here, before⟩, rfl⟩
    refine ⟨index, List.getElem?_eq_some_iff.mpr ⟨inside, here⟩, ?_⟩
    intro earlier lower entry at_earlier
    obtain ⟨_, rfl⟩ := List.getElem?_eq_some_iff.mp at_earlier
    simpa using before earlier lower
  · rintro ⟨index, at_index, before⟩
    obtain ⟨inside, here⟩ := List.getElem?_eq_some_iff.mp at_index
    refine ⟨⟨label, value⟩, ⟨rfl, index, inside, here, ?_⟩, rfl⟩
    intro earlier lower
    simpa using before earlier lower _ (List.getElem?_eq_getElem (lower.trans inside))

theorem find?_eq_none_iff {plan : Plan} {label : String} :
    plan.find? label = none ↔
      ∀ index entry, plan.get? index = some entry → entry.label ≠ label := by
  simp only [find?, get?, Option.map_eq_none_iff, List.find?_eq_none, List.mem_iff_getElem?,
    beq_iff_eq]
  exact ⟨fun absent index entry here => absent entry ⟨index, here⟩,
    fun absent entry ⟨index, here⟩ => absent index entry here⟩

end Plan

/-! ## Entries that are pushed -/

/-- An entry that is asked for, with its label or with the parts of it. -/
inductive Addition
  | plain (label value : String)
  | formatted (parts : List String) (value : String)
deriving DecidableEq, Repr

namespace Addition

/-- The label that is asked for. -/
def label : Addition → String
  | plain label _ => label
  | formatted parts _ => String.join parts

/-- The value that is asked for. -/
def value : Addition → String
  | plain _ value => value
  | formatted _ value => value

end Addition

namespace Plan

/-- A plan with one more entry. -/
def add (plan : Plan) : Addition → Plan
  | .plain label value => plan.push label value
  | .formatted parts value => plan.pushFormatted parts value

/-- A plan with the entries of a list behind its own. -/
def addAll (plan : Plan) (additions : List Addition) : Plan :=
  additions.foldl add plan

theorem entries_add (plan : Plan) (addition : Addition) :
    (plan.add addition).entries = plan.entries ++ [Entry.make addition.label addition.value] := by
  cases addition <;> rfl

theorem entries_addAll (plan : Plan) (additions : List Addition) :
    (plan.addAll additions).entries =
      plan.entries ++ additions.map fun addition => Entry.make addition.label addition.value := by
  induction additions generalizing plan with
  | nil => exact (List.append_nil _).symm
  | cons addition others ih =>
      have step : plan.addAll (addition :: others) = (plan.add addition).addAll others := rfl
      rw [step, ih, entries_add, List.append_assoc]
      rfl

theorem get?_addAll (additions : List Addition) (index : Nat) :
    (empty.addAll additions).get? index =
      additions[index]?.map fun addition => Entry.make addition.label addition.value := by
  rw [get?, entries_addAll, empty, List.nil_append, List.getElem?_map]

/-- No label of more than 32 octets is stored. -/
theorem utf8ByteSize_label_le {additions : List Addition} {index : Nat} {entry : Entry}
    (here : (empty.addAll additions).get? index = some entry) :
    entry.label.utf8ByteSize ≤ 32 := by
  rw [get?_addAll, Option.map_eq_some_iff] at here
  obtain ⟨addition, -, rfl⟩ := here
  exact (storedAs_cutLabel addition.label).fits

/-- A plan has an entry for everything that was pushed and nothing else, in the same
order.  Every value is kept, and every label that takes at most 32 octets; of a longer
one, the longest initial part that takes at most 32 octets is stored.  The value found
under a label is that of the first entry that stores it, so nothing is found under a
label of more than 32 octets. -/
theorem plans_keep_every_entry (additions : List Addition) :
    let plan := empty.addAll additions
    plan.length = additions.length ∧
      (∀ index, plan.get? index = none ↔ additions.length ≤ index) ∧
      (∀ index addition, additions[index]? = some addition →
        ∃ stored, plan.get? index = some ⟨stored, addition.value⟩ ∧
          StoredAs addition.label stored ∧
          (stored = addition.label ↔ addition.label.utf8ByteSize ≤ 32)) ∧
      (∀ label value, plan.find? label = some value ↔
        ∃ index, plan.get? index = some ⟨label, value⟩ ∧
          ∀ earlier < index, ∀ entry,
            plan.get? earlier = some entry → entry.label ≠ label) ∧
      (∀ label, plan.find? label = none ↔
        ∀ index entry, plan.get? index = some entry → entry.label ≠ label) ∧
      ∀ label, 32 < label.utf8ByteSize → plan.find? label = none := by
  intro plan
  refine ⟨?_, ?_, ?_, fun label value => find?_eq_some_iff, fun label => find?_eq_none_iff, ?_⟩
  · rw [length, entries_addAll, empty, List.nil_append, List.length_map]
  · intro index
    rw [get?_addAll, Option.map_eq_none_iff, List.getElem?_eq_none_iff]
  · intro index addition here
    refine ⟨cutLabel addition.label, ?_, storedAs_cutLabel _, cutLabel_eq_self_iff⟩
    rw [get?_addAll, here]
    rfl
  · intro label long
    -- A label that is found is one that is stored.
    rw [find?_eq_none_iff]
    rintro index entry here rfl
    exact Nat.not_le.mpr long (utf8ByteSize_label_le here)

/-- Of a label with 31 letters and two characters more, the first of which takes two
octets, the letters are stored, though there is room for the last character. -/
theorem entries_of_long_and_formatted_labels :
    let long := "aaaaaaaaaaaaaaaaaaaaaaaaaaaaaaaéb"
    let plan := empty.addAll
      [.plain long "1", .formatted ["Action ", "1", "/", "2"] "Transfer",
        .plain "Action 1/2" "Stake"]
    plan.length = 3 ∧ plan.get? 3 = none ∧
      plan.get? 0 = some ⟨"aaaaaaaaaaaaaaaaaaaaaaaaaaaaaaa", "1"⟩ ∧
      plan.find? "Action 1/2" = some "Transfer" ∧ plan.find? long = none := by
  intro long plan
  obtain ⟨length_eq, outside, -, found, -, absent⟩ := plans_keep_every_entry
    [.plain long "1", .formatted ["Action ", "1", "/", "2"] "Transfer",
      .plain "Action 1/2" "Stake"]
  have first : plan.get? 0 = some ⟨"aaaaaaaaaaaaaaaaaaaaaaaaaaaaaaa", "1"⟩ := by decide
  have second : plan.get? 1 = some ⟨"Action 1/2", "Transfer"⟩ := by decide
  refine ⟨length_eq, (outside 3).mpr (Nat.le_refl 3), first, ?_, absent long (by decide)⟩
  refine (found _ _).mpr ⟨1, second, ?_⟩
  intro earlier lower entry here
  obtain rfl : earlier = 0 := Nat.lt_one_iff.mp lower
  obtain rfl := Option.some.inj (first.symm.trans here)
  decide

end Plan

end NearSigner
