import NearSigner.Frame.Code
import NearSigner.Transaction.Basic

/-!
# Codes and tags

The members of a finite type are looked up by their codes.  Since every member
is found under its own code, a lookup yields a member exactly from the code of
that member.
-/

namespace NearSigner

section Lookup

variable {Member Code : Type} [BEq Code] [LawfulBEq Code] {members : List Member}
  {codeOf : Member → Code} {code : Code}

/-- Where every member is found, a member is found exactly by its code. -/
theorem find?_code_eq_some_iff
    (complete : ∀ member, members.find? (codeOf · == codeOf member) = some member)
    {member : Member} : members.find? (codeOf · == code) = some member ↔ code = codeOf member := by
  constructor
  · intro found
    have same := List.find?_some found
    exact (beq_iff_eq.mp same).symm
  · rintro rfl
    exact complete member

/-- A code that no member has is not found. -/
theorem find?_code_eq_none (unknown : code ∉ members.map codeOf) :
    members.find? (codeOf · == code) = none := by
  rw [List.find?_eq_none]
  intro member listed same
  exact unknown (List.mem_map.mpr ⟨member, listed, beq_iff_eq.mp same⟩)

end Lookup

theorem KeyKind.ofTag?_eq_some_iff {tag : UInt8} {kind : KeyKind} :
    ofTag? tag = some kind ↔ tag = kind.tag :=
  find?_code_eq_some_iff ofTag?_tag

theorem PermissionKind.ofTag?_eq_some_iff {tag : UInt8} {kind : PermissionKind} :
    ofTag? tag = some kind ↔ tag = kind.tag :=
  find?_code_eq_some_iff ofTag?_tag

theorem ActionKind.ofTag?_eq_some_iff {tag : UInt8} {kind : ActionKind} :
    ofTag? tag = some kind ↔ tag = kind.tag :=
  find?_code_eq_some_iff ofTag?_tag

end NearSigner
