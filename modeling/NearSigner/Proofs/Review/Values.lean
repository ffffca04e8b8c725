import NearSigner.Proofs.Bytes.Texts
import NearSigner.Review.Rendering

/-!
# Values as they are shown

A value on show is the text of one value only.  Numbers are shown by their
decimal digits, so nothing that has another character in it is mistaken for a
number; the arguments of a call are shown as text only behind a brace, which is
no hexadecimal digit.
-/

namespace NearSigner

/-! ## Numbers -/

/-- A number is recovered from the digits that show it. -/
theorem ofDigitChars_decimal (value : Nat) :
    Nat.ofDigitChars 10 (decimal value).toList 0 = value := by
  rw [decimal, Nat.toList_repr, Nat.ofDigitChars_ten_toDigits]

theorem decimal_injective {first second : Nat} (equal : decimal first = decimal second) :
    first = second := by
  rw [← ofDigitChars_decimal first, equal, ofDigitChars_decimal]

theorem isDigit_of_mem_decimal {value : Nat} {char : Char}
    (shown : char ∈ (decimal value).toList) : char.isDigit = true := by
  rw [decimal, Nat.toList_repr] at shown
  exact Nat.isDigit_of_mem_toDigits (by decide) (by decide) shown

/-- A text with a character that is no digit shows no number. -/
theorem decimal_ne {value : Nat} {text : String}
    (other : text.toList.any (fun char => !char.isDigit) = true) : decimal value ≠ text := by
  rintro rfl
  rcases List.any_eq_true.mp other with ⟨char, shown, noDigit⟩
  rw [isDigit_of_mem_decimal shown] at noDigit
  cases noDigit

theorem decimal_ne_actionKind (value : Nat) (kind : ActionKind) : decimal value ≠ kind.name := by
  apply decimal_ne
  cases kind <;> decide

theorem ActionKind.name_injective {first second : ActionKind}
    (equal : first.name = second.name) : first = second := by
  revert equal
  cases first <;> cases second <;> decide

/-! ## Keys -/

theorem PublicKey.text_injective {first second : PublicKey} (equal : first.text = second.text) :
    first = second := by
  rcases first with ⟨⟨⟩, data⟩
  rcases second with ⟨⟨⟩, other⟩
  have encodings_eq : Base58.encode data.toBytes = Base58.encode other.toBytes :=
    (String.append_right_inj _).mp equal
  rw [Base58.encode_toBytes_injective encodings_eq]

/-! ## Allowances -/

/-- An allowance as it is shown. -/
def Permission.allowanceText : Option Amount → String
  | some amount => decimal amount.toNat
  | none => "Unlimited"

theorem Permission.allowanceText_none_ne (amount : Amount) :
    allowanceText none ≠ allowanceText (some amount) := by
  apply Ne.symm
  exact decimal_ne (by decide)

theorem Permission.allowanceText_injective {first second : Option Amount}
    (equal : allowanceText first = allowanceText second) : first = second := by
  cases first with
  | none =>
      cases second with
      | none => rfl
      | some amount => exact absurd equal (allowanceText_none_ne amount)
  | some amount =>
      cases second with
      | none => exact absurd equal.symm (allowanceText_none_ne amount)
      | some other => rw [BitVec.eq_of_toNat_eq (decimal_injective equal)]

/-! ## Arguments of a call -/

/-- The arguments are the text of an object in braces. -/
def OpensObject (args : Bytes) : Prop :=
  ∃ text, Bytes.toText? args = some text ∧ text.toList.head? = some '\x7b'

theorem argsText_of_text {args : Bytes} {text : String} (read : Bytes.toText? args = some text)
    (brace : text.toList.head? = some '\x7b') : argsText args = text := by
  simp only [argsText, read, if_pos brace]

theorem toText?_of_opensObject {args : Bytes} (opens : OpensObject args) :
    Bytes.toText? args = some (argsText args) := by
  rcases opens with ⟨text, read, brace⟩
  rw [argsText_of_text read brace, read]

theorem argsText_of_not_opensObject {args : Bytes} (other : ¬OpensObject args) :
    argsText args = Hex.encode args := by
  rw [argsText]
  split
  · rename_i text read
    exact if_neg fun brace => other ⟨text, read, brace⟩
  · rfl

/-- Arguments shown as text never look like arguments shown in hexadecimal. -/
theorem argsText_ne_of_opensObject {args others : Bytes} (opens : OpensObject args)
    (other : ¬OpensObject others) : argsText args ≠ argsText others := by
  rcases opens with ⟨text, read, brace⟩
  rw [argsText_of_text read brace, argsText_of_not_opensObject other]
  rintro rfl
  exact Hex.head?_encode_ne_brace others brace

theorem argsText_injective {first second : Bytes} (equal : argsText first = argsText second) :
    first = second := by
  by_cases firstOpens : OpensObject first
  · by_cases secondOpens : OpensObject second
    · rcases firstOpens with ⟨text, read, brace⟩
      rcases secondOpens with ⟨text', read', brace'⟩
      rw [argsText_of_text read brace, argsText_of_text read' brace'] at equal
      rw [Bytes.toText?_eq_some_iff.mp read, Bytes.toText?_eq_some_iff.mp read', equal]
    · exact absurd equal (argsText_ne_of_opensObject firstOpens secondOpens)
  · by_cases secondOpens : OpensObject second
    · exact absurd equal.symm (argsText_ne_of_opensObject secondOpens firstOpens)
    · rw [argsText_of_not_opensObject firstOpens,
        argsText_of_not_opensObject secondOpens] at equal
      exact Hex.encode_injective equal

end NearSigner
