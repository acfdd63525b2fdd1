import Attestation.Cbor.Value

/-!
# Items that are the same as themselves

Items are compared part by part, and floating-point numbers as numbers, of which one that is no
number equals nothing, not even itself. So an item is the same as itself exactly if all the
floating-point numbers in it are numbers (`Value.same_self_iff`).
-/

namespace Attestation.Cbor

/-- A floating-point number equals itself unless it is a NaN. -/
theorem Real.equal_self (bits : UInt64) : Real.equal bits bits = !Real.isNaN bits := by
  simp [Real.equal]

namespace Value

/-! ## Floating-point numbers of an item -/

mutual

/-- The bits of the floating-point numbers in an item, in their order. -/
def reals : Value → List UInt64
  | real bits => [bits]
  | tag _ v => reals v
  | array vs => realsOfItems vs
  | map entries => realsOfEntries entries
  | unsigned _ | negative _ | bytes _ | text _ | bool _ | null => []

/-- The bits of the floating-point numbers in a list of items. -/
def realsOfItems : List Value → List UInt64
  | [] => []
  | v :: vs => reals v ++ realsOfItems vs

/-- The bits of the floating-point numbers in the keys and the values of entries. -/
def realsOfEntries : Entries → List UInt64
  | [] => []
  | (k, v) :: entries => reals k ++ reals v ++ realsOfEntries entries

end

/-- Every floating-point number in the item is a number. -/
def NaNFree (v : Value) : Prop :=
  ∀ bits ∈ v.reals, Real.isNaN bits = false

/-! ## Comparison -/

mutual

/-- An item is the same as itself exactly if there is no NaN in it. -/
theorem same_self : ∀ v : Value, same v v = v.reals.all fun bits => !Real.isNaN bits
  | unsigned _ | negative _ | bytes _ | text _ | bool _ | null => by simp [same, reals]
  | real bits => by simp [same, reals, Real.equal_self]
  | tag number v => by simp [same, reals, same_self v]
  | array vs => by rw [same, reals, sameItems_self vs]
  | map entries => by rw [same, reals, sameEntries_self entries]

/-- Items are the same as themselves part by part. -/
theorem sameItems_self : ∀ vs : List Value,
    sameItems vs vs = (realsOfItems vs).all fun bits => !Real.isNaN bits
  | [] => by simp [sameItems, realsOfItems]
  | v :: vs => by
    rw [sameItems, realsOfItems, List.all_append, same_self v, sameItems_self vs]

/-- Entries are the same as themselves part by part. -/
theorem sameEntries_self : ∀ entries : Entries,
    sameEntries entries entries = (realsOfEntries entries).all fun bits => !Real.isNaN bits
  | [] => by simp [sameEntries, realsOfEntries]
  | (k, v) :: entries => by
    rw [sameEntries, realsOfEntries, List.all_append, List.all_append, same_self k, same_self v,
      sameEntries_self entries]

end

/-- An item is the same as itself unless a floating-point number in it is no number. -/
theorem same_self_iff {v : Value} : same v v = true ↔ v.NaNFree := by
  rw [same_self, List.all_eq_true]
  simp only [Bool.not_eq_true', NaNFree]

end Value

end Attestation.Cbor
