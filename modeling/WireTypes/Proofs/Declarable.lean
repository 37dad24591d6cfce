import WireTypes.Code.Constant.SharedWords
import WireTypes.Code.Ident
import WireTypes.Package.Name
import WireTypes.Proofs.Trimming

/-!
# Names that can be declared

No reserved word starts with a capital, so an exported name can be declared as soon as it is an
identifier. The words that names share start with a capital, and are an identifier if one of the
names is (`isDeclarable_of_sharedWords?`).
-/

set_option autoImplicit false

namespace WireTypes.Code

theorem isReserved_eq_false {name : String} (h : Package.isExported name) :
    isReserved name = false := by
  have hall : ∀ word ∈ reservedWords, Package.isExported word = false := by decide +kernel
  cases hr : isReserved name with
  | false => rfl
  | true => rw [hall name (List.contains_iff_mem.1 hr)] at h; cases h

theorem isDeclarable_of_exported {name : String} (h : Package.isExported name)
    (hid : isIdentifier name) : isDeclarable name := by
  rw [isDeclarable, hid, isReserved_eq_false h]
  rfl

/-- What an identifier starts with is an identifier, unless it is empty. -/
theorem isIdentChars_of_initial {cs ds : List Char} (hp : cs <+: ds) (hne : cs ≠ [])
    (h : isIdentChars ds) : isIdentChars cs := by
  obtain ⟨rest, rfl⟩ := hp
  cases cs with
  | nil => exact absurd rfl hne
  | cons c cs =>
    simp only [List.cons_append, isIdentChars, List.all_append, Bool.and_eq_true] at h ⊢
    exact ⟨h.1, h.2.1⟩

/-- Shared words start the first name, and start with a capital. -/
theorem sharedWords?_cases {first name : String} {rest : List String}
    (h : sharedWords? (first :: rest) = some name) :
    name.toList <+: first.toList ∧ Package.isExported name := by
  unfold sharedWords? at h
  obtain ⟨cs, hcs, rfl⟩ := Option.map_eq_some_iff.1 h
  simp only [List.map_cons, sharedStart?, Option.bind_eq_bind, Option.bind_eq_some_iff] at hcs
  obtain ⟨cut, -, hcs⟩ := hcs
  split at hcs
  · rename_i hcap
    cases hcs
    refine ⟨?_, by simpa [Package.isExported] using hcap⟩
    rw [String.toList_ofList]
    have htake := List.take_prefix cut first.toList
    exact (Text.dropEndWhile_isPrefix _ _).trans htake
  · cases hcs

theorem isDeclarable_of_sharedWords? {first name : String} {rest : List String}
    (h : sharedWords? (first :: rest) = some name) (hid : isIdentifier first) :
    isDeclarable name := by
  obtain ⟨hp, hexp⟩ := sharedWords?_cases h
  refine isDeclarable_of_exported hexp (isIdentChars_of_initial hp ?_ hid)
  intro hnil
  simp [Package.isExported, hnil] at hexp

end WireTypes.Code
