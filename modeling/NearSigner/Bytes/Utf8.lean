import NearSigner.Bytes.Basic

/-!
# Text as UTF-8

A sequence of octets is text when it is the UTF-8 form of some string.  Every
string has one such form, so reading accepts exactly what writing produces.
-/

namespace NearSigner.Bytes

/-- The UTF-8 form of a string. -/
def ofText (text : String) : Bytes :=
  text.toByteArray.data.toList

/-- The string whose UTF-8 form the octets are, if there is one. -/
def toText? (bytes : Bytes) : Option String :=
  String.fromUTF8? ⟨bytes.toArray⟩

/-- The UTF-8 form of a text is as long as its size in octets. -/
theorem length_ofText (text : String) : (ofText text).length = text.utf8ByteSize := by
  rw [← String.size_toByteArray, ofText, Array.length_toList, ByteArray.size_data]

/-- Octets read as a text exactly when they are its UTF-8 form. -/
theorem toText?_eq_some_iff {bytes : Bytes} {text : String} :
    toText? bytes = some text ↔ bytes = ofText text := by
  unfold toText? String.fromUTF8?
  constructor
  · intro read
    split at read
    · cases read
      simp [ofText, String.fromUTF8]
    · cases read
  · rintro rfl
    have same : (⟨(ofText text).toArray⟩ : ByteArray) = text.toByteArray := by
      simp [ofText]
    simp only [same, text.isValidUTF8, dite_true]
    congr 1

@[simp]
theorem toText?_ofText (text : String) : toText? (ofText text) = some text :=
  toText?_eq_some_iff.mpr rfl

/-- Different texts have different UTF-8 forms. -/
theorem ofText_injective {first second : String}
    (equal : ofText first = ofText second) : first = second := by
  have read := toText?_ofText first
  rw [equal, toText?_ofText] at read
  exact (Option.some.inj read).symm

end NearSigner.Bytes
