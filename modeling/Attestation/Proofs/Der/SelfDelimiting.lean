import Attestation.Der.Value
import Attestation.Proofs.Reader.SelfDelimiting

/-!
# Elements are self-delimiting

An element whose header gives its length is read to its end and no further, and so is the value that
it is (`Element.selfDelimiting_read`, `Value.selfDelimiting_read`).
-/

namespace Attestation.Der

open Reader (SelfDelimiting)

/-- A long tag number ends at its first byte without a mark. -/
theorem Header.selfDelimiting_readNumber (bound start : Nat) :
    (readNumber bound start).SelfDelimiting := by
  induction bound generalizing start with
  | zero => exact .failure
  | succ bound ih =>
    intro b n rest h
    obtain ⟨⟨digit, b₁⟩, hdigit, hrest⟩ := Option.bind_eq_some_iff.1 h
    obtain ⟨front, rfl, hfront⟩ := Reader.selfDelimiting_byte _ _ _ hdigit
    dsimp only at hrest
    split at hrest
    · rename_i hlast
      cases hrest
      exact ⟨front, rfl, fun rest => by simp [readNumber, hfront _, hlast]⟩
    · rename_i hlast
      obtain ⟨more, rfl, hmore⟩ := ih _ _ _ _ hrest
      exact ⟨front ++ more, by simp, fun rest => by simp [readNumber, hfront _, hlast, hmore _]⟩

/-- A length is told by its first byte and those that this one asks for. -/
theorem Header.selfDelimiting_readExtent : readExtent.SelfDelimiting := by
  intro b extent rest h
  obtain ⟨⟨first, b₁⟩, hfirst, hrest⟩ := Option.bind_eq_some_iff.1 h
  obtain ⟨front, rfl, hfront⟩ := Reader.selfDelimiting_byte _ _ _ hfirst
  dsimp only at hrest
  split at hrest
  · rename_i hshort
    cases hrest
    exact ⟨front, rfl, fun rest => by simp [readExtent, hfront _, hshort]⟩
  split at hrest
  · rename_i hshort hindefinite
    cases hrest
    exact ⟨front, rfl, fun rest => by simp [readExtent, hfront _, hindefinite]⟩
  split at hrest
  · cases hrest
  · rename_i hshort hindefinite hreserved
    obtain ⟨⟨length, b₂⟩, hlength, hextent⟩ := Option.bind_eq_some_iff.1 hrest
    dsimp only at hextent
    split at hextent
    · rename_i hlimit
      cases hextent
      obtain ⟨more, rfl, hmore⟩ := Reader.selfDelimiting_number _ _ _ _ hlength
      refine ⟨front ++ more, by simp, fun rest => ?_⟩
      simp [readExtent, hfront _, hmore _, hshort, hindefinite, hreserved, hlimit]
    · cases hextent

/-- Takes the number of a tag, which is in the lowest bits of its first byte or in the bytes that
follow. -/
def Header.readTagNumber (low : Nat) : Reader Nat := fun b =>
  if low = 31 then readNumber maxNumberLength 0 b else some (low, b)

/-- A tag number is told by the first byte, or ends where the long form does. -/
theorem Header.selfDelimiting_readTagNumber (low : Nat) : (readTagNumber low).SelfDelimiting := by
  unfold readTagNumber
  by_cases h : low = 31
  · simp only [if_pos h]
    exact selfDelimiting_readNumber _ _
  · simp only [if_neg h]
    exact .pure low

/-- A header is read in three steps. -/
theorem Header.read_eq (b : Bytes) : read b = do
    let (first, b) ← Reader.byte b
    let (number, b) ← readTagNumber (first.toNat % 32) b
    let (extent, b) ← readExtent b
    return (⟨.ofBits (first.toNat / 64), first.toNat / 32 % 2 == 1, number, extent⟩, b) := by
  refine congrArg (Reader.byte b >>= ·) (funext fun ⟨first, b⟩ => ?_)
  simp only [readTagNumber]
  split <;> rfl

/-- A header ends with its length. -/
theorem Header.selfDelimiting_read : Header.read.SelfDelimiting := by
  intro b header rest h
  rw [read_eq] at h
  obtain ⟨⟨first, b₁⟩, hfirst, h⟩ := Option.bind_eq_some_iff.1 h
  obtain ⟨⟨number, b₂⟩, hnumber, h⟩ := Option.bind_eq_some_iff.1 h
  obtain ⟨⟨extent, b₃⟩, hextent, h⟩ := Option.bind_eq_some_iff.1 h
  cases h
  obtain ⟨front, rfl, hfront⟩ := Reader.selfDelimiting_byte _ _ _ hfirst
  obtain ⟨middle, rfl, hmiddle⟩ := selfDelimiting_readTagNumber _ _ _ _ hnumber
  obtain ⟨back, rfl, hback⟩ := selfDelimiting_readExtent _ _ _ hextent
  exact ⟨front ++ (middle ++ back), by simp, fun rest => by
    simp [read_eq, hfront _, hmiddle _, hback _]⟩

/-- An element ends where its length says. -/
theorem Element.selfDelimiting_read : Element.read.SelfDelimiting := by
  intro b e rest h
  obtain ⟨⟨header, b₁⟩, hheader, hrest⟩ := Option.bind_eq_some_iff.1 h
  obtain ⟨front, rfl, hfront⟩ := Header.selfDelimiting_read _ _ _ hheader
  dsimp only at hrest
  split at hrest
  · rename_i length hextent
    obtain ⟨⟨content, b₂⟩, hcontent, he⟩ := Option.bind_eq_some_iff.1 hrest
    cases he
    obtain ⟨back, rfl, hback⟩ := Reader.selfDelimiting_splitAt? _ _ _ _ hcontent
    refine ⟨front ++ back, by simp, fun rest => ?_⟩
    simp [Element.read, hfront _, hextent, hback _]
  · cases hrest

theorem Element.read_nil : Element.read [] = none :=
  rfl

/-- A value is read from one element. -/
theorem Value.read_eq_some {b rest : Bytes} {v : Value} : Value.read b = some (v, rest) ↔
    ∃ e, Element.read b = some (e, rest) ∧ ofDistinguished? e = some v := by
  refine ⟨fun h => ?_, fun ⟨e, he, hv⟩ => ?_⟩
  · obtain ⟨⟨e, b₁⟩, he, h⟩ := Option.bind_eq_some_iff.1 h
    obtain ⟨v', hv, h⟩ := Option.bind_eq_some_iff.1 h
    cases h
    exact ⟨e, he, hv⟩
  · simp [Value.read, he, hv]

/-- A value ends with its element. -/
theorem Value.selfDelimiting_read : Value.read.SelfDelimiting := by
  intro b v rest h
  obtain ⟨e, he, hv⟩ := read_eq_some.1 h
  obtain ⟨front, rfl, hfront⟩ := Element.selfDelimiting_read _ _ _ he
  exact ⟨front, rfl, fun rest => read_eq_some.2 ⟨e, hfront rest, hv⟩⟩

theorem Value.read_nil : Value.read [] = none :=
  rfl

end Attestation.Der
