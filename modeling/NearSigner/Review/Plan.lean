import NearSigner.Bytes.Hex
import NearSigner.Transaction.Basic

/-!
# Review plans

What the user is asked to approve is shown as an ordered list of labelled
values.  A label is cut to a fixed size before it is stored, and only between
characters; a value is stored as it is.
-/

namespace NearSigner

/-- The greatest size of a label, in octets of UTF-8. -/
def maxLabelSize : Nat := 32

/-- The longest initial part of a text whose characters take at most `room`
octets together. -/
def fittingPart : (room : Nat) → List Char → List Char
  | _, [] => []
  | room, char :: rest =>
      if char.utf8Size ≤ room then
        char :: fittingPart (room - char.utf8Size) rest
      else
        []

/-- A label cut to the size in which labels are stored. -/
def cutLabel (label : String) : String :=
  String.ofList (fittingPart maxLabelSize label.toList)

/-- A labelled value. -/
structure Entry where
  label : String
  value : String
deriving DecidableEq, Repr

/-- The entry that stores a label and a value. -/
def Entry.make (label value : String) : Entry where
  label := cutLabel label
  value := value

/-- The line in which an entry is written. -/
def Entry.line (entry : Entry) : String :=
  entry.label ++ ": " ++ entry.value ++ "\n"

/-- An ordered list of entries. -/
structure Plan where
  entries : List Entry
deriving DecidableEq, Repr

namespace Plan

/-- The plan without entries. -/
def empty : Plan where
  entries := []

/-- A plan with one more entry at its end. -/
def push (plan : Plan) (label value : String) : Plan where
  entries := plan.entries ++ [Entry.make label value]

/-- A plan with one more entry at its end, whose label is put together from parts. -/
def pushFormatted (plan : Plan) (parts : List String) (value : String) : Plan :=
  plan.push (String.join parts) value

/-- The plan that stores labels and values in the order given. -/
def ofList (contents : List (String × String)) : Plan where
  entries := contents.map fun (label, value) => Entry.make label value

/-- The number of entries. -/
def length (plan : Plan) : Nat :=
  plan.entries.length

/-- Whether there are no entries. -/
def isEmpty (plan : Plan) : Bool :=
  plan.entries.isEmpty

/-- The entry at a place. -/
def get? (plan : Plan) (index : Nat) : Option Entry :=
  plan.entries[index]?

/-- The value of the first entry with a label. -/
def find? (plan : Plan) (label : String) : Option String :=
  (plan.entries.find? (·.label == label)).map Entry.value

/-- The plan as text, one line for every entry. -/
def text (plan : Plan) : String :=
  String.join (plan.entries.map Entry.line)

@[simp]
theorem ofList_nil : ofList [] = empty :=
  rfl

/-- Storing one pair more is pushing it. -/
theorem ofList_append_singleton (contents : List (String × String))
    (label value : String) :
    ofList (contents ++ [(label, value)]) = (ofList contents).push label value := by
  simp [ofList, push]

/-- A plan is built by pushing its contents in order. -/
theorem ofList_eq_foldl (contents : List (String × String)) :
    ofList contents =
      contents.foldl (fun plan content => plan.push content.1 content.2) empty := by
  suffices general : ∀ plan : Plan,
      contents.foldl (fun plan content => plan.push content.1 content.2) plan =
        { entries := plan.entries ++ (ofList contents).entries } by
    simp [general, empty]
  induction contents with
  | nil => intro plan; simp [empty]
  | cons content others ih =>
      intro plan
      rw [List.foldl_cons, ih]
      simp [push, ofList]

/-! ## Plans of a single entry -/

/-- The plan that shows a public key. -/
def forPublicKey (key : Block 32) : Plan :=
  ofList [("Public Key", PublicKey.text { kind := .ed25519, data := key })]

/-- The plan that shows a wallet identifier. -/
def forWalletId (key : Block 32) : Plan :=
  ofList [("Wallet ID", Hex.encode key.toBytes)]

/-- The plan that shows a hash to be signed as it stands. -/
def forBlindHash (hash : Block 32) : Plan :=
  ofList [("Base58 Hash", Base58.encode hash.toBytes)]

end Plan

end NearSigner
