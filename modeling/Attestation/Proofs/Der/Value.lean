import Attestation.Proofs.Der.Writing
import Attestation.Proofs.Result

/-!
# Reading values

What `Value.readNumbered` makes of an element whose number is given: a set is read if it consists of
elements that are values themselves (`Value.ofDistinguished?_set`), an integer if it has its
shortest form (`Value.ofDistinguished?_integer`). Whether a part of a set is an integer of 64 bits
can be told from the element that it is (`Value.ofElement_bind_toInt64?`).
-/

namespace Attestation.Der

/-- The integer of 64 bits that an element is. -/
def Element.int64? (e : Element) : Option Int :=
  if e.tagClass = .universal ∧ e.number = TagNumber.integer then
    (Value.integer e.content).toInt64?
  else none

namespace Value

/-- A value with an expected number is read as if it were of the universal class. -/
theorem readNumbered_eq_some {number : Nat} {b rest : Bytes} {v : Value} :
    readNumbered number b = some (v, rest) ↔ ∃ e, Element.read b = some (e, rest) ∧
      e.number = number ∧ ofDistinguished? { e with tagClass := .universal } = some v := by
  refine ⟨fun h => ?_, fun ⟨e, he, hnumber, hv⟩ => ?_⟩
  · obtain ⟨⟨e, b₁⟩, he, h₁⟩ := Option.bind_eq_some_iff.1 h
    obtain ⟨v', hv, h₂⟩ := Option.bind_eq_some_iff.1 h₁
    cases h₂
    obtain ⟨⟨e', b₂⟩, he', h₃⟩ := Option.bind_eq_some_iff.1 he
    dsimp only at h₃
    split at h₃
    · rename_i hnumber
      cases h₃
      exact ⟨e, he', hnumber, hv⟩
    · cases h₃
  · subst hnumber
    simp [readNumbered, Element.readNumbered, he, hv]

/-- Of the universal types only integers are read as such. -/
theorem ofScalar_eq_integer {e : Element} {b : Bytes} :
    ofScalar e = some (.integer b) ↔ e.number = TagNumber.integer ∧ b = e.content := by
  unfold ofScalar
  split
  case h_2 hinteger => simp [hinteger, TagNumber.integer, eq_comm]
  all_goals simp_all [checked, TagNumber.integer]

/-- Only an element with the number of integers is an integer. -/
theorem ofScalar_bind_toInt64? (e : Element) : (ofScalar e).bind toInt64? =
    if e.number = TagNumber.integer then (Value.integer e.content).toInt64? else none := by
  by_cases h : e.number = TagNumber.integer
  · rw [if_pos h, ofScalar_eq_integer.2 ⟨h, rfl⟩, Option.bind_some]
  · rw [if_neg h]
    cases hv : ofScalar e with
    | none => rfl
    | some v =>
      cases v with
      | integer b => exact absurd (ofScalar_eq_integer.1 hv).1 h
      | _ => rfl

/-- An element is an integer of 64 bits by its class, its number and its content. -/
theorem ofElement_bind_toInt64? (depth : Nat) (e : Element) :
    (ofElement (depth + 1) e).bind toInt64? = e.int64? := by
  unfold ofElement Element.int64?
  split
  · rename_i hclass
    rw [if_neg fun h => hclass h.1]
    rfl
  split
  · rename_i hclass hnumber
    have hne : ¬(e.tagClass = .universal ∧ e.number = TagNumber.integer) := by
      rintro ⟨-, h⟩
      rw [h] at hnumber
      exact absurd hnumber (by decide)
    rw [if_neg hne]
    split
    · cases Reader.all Element.readBasic e.content.length e.content with
      | none => rfl
      | some es =>
        simp only [Option.bind_eq_bind, Option.bind_some]
        cases es.mapM (ofElement depth) with
        | none => rfl
        | some vs => by_cases hset : e.number = TagNumber.set <;> simp [hset, toInt64?]
    · rfl
  · rename_i hclass hnumber
    rw [ofScalar_bind_toInt64?]
    simp only [Decidable.not_not.1 hclass, true_and]

/-- A sequence or a set is read if it consists of elements, and these are values. -/
theorem ofDistinguished?_parts {e : Element} (hclass : e.tagClass = .universal)
    (h : e.number = TagNumber.sequence ∨ e.number = TagNumber.set) {v : Value} :
    ofDistinguished? e = some v ↔ e.constructed = true ∧
      ∃ es vs, Reader.all Element.readBasic e.content.length e.content = some es ∧
        es.mapM (ofElement (maxDepth - 1)) = some vs ∧
        v = if e.number = TagNumber.set then .set vs else .sequence vs := by
  have hdistinguished : isDistinguished e = true := by
    rcases h with h | h <;>
      simp [isDistinguished, h, TagNumber.sequence, TagNumber.set, isTextNumber]
  rw [ofDistinguished?, if_pos (.inr hdistinguished), maxDepth, ofElement,
    if_neg (by simp [hclass]), if_pos h]
  cases e.constructed with
  | false => simp
  | true =>
    simp only [if_true, Option.bind_eq_bind, Option.bind_eq_some_iff, Option.pure_def,
      Option.some.injEq, true_and]
    refine exists_congr fun es => ⟨fun ⟨hes, vs, hvs, hv⟩ => ?_, fun ⟨vs, hes, hvs, hv⟩ => ?_⟩
    · exact ⟨vs, hes, hvs, hv.symm⟩
    · exact ⟨hes, vs, hvs, hv.symm⟩

/-- A set is a constructed element whose content is read value by value. -/
theorem ofDistinguished?_set {e : Element} (h : e.number = TagNumber.set) {v : Value} :
    ofDistinguished? { e with tagClass := .universal } = some v ↔ e.constructed = true ∧
      ∃ es vs, Reader.all Element.readBasic e.content.length e.content = some es ∧
        es.mapM (ofElement (maxDepth - 1)) = some vs ∧ v = .set vs := by
  have hparts := ofDistinguished?_parts (e := { e with tagClass := .universal }) rfl (.inr h)
    (v := v)
  simpa only [if_pos h] using hparts

/-- An integer is an element with its number and a content in the shortest form. -/
theorem ofDistinguished?_integer {e : Element} (h : e.number = TagNumber.integer) {v : Value} :
    ofDistinguished? { e with tagClass := .universal } = some v ↔
      isShortestInteger e.content = true ∧ v = .integer e.content := by
  have hdistinguished : isDistinguished { e with tagClass := .universal } =
      isShortestInteger e.content := by
    simp [isDistinguished, h, TagNumber.integer]
  have hscalar :
      ofElement maxDepth { e with tagClass := .universal } = some (.integer e.content) := by
    rw [maxDepth, ofElement, if_neg (by simp), if_neg (by simp [h, TagNumber.integer,
      TagNumber.sequence, TagNumber.set])]
    exact ofScalar_eq_integer.2 ⟨h, rfl⟩
  rw [ofDistinguished?, hdistinguished, hscalar]
  cases isShortestInteger e.content <;> simp [eq_comm]

/-! ## Reading what was written -/

/-- An integer is read from the element that it is written as. -/
theorem takes_integer {n : Int} (h : (Element.integer n).Fits) :
    (readNumbered TagNumber.integer).Takes (Element.integer n).encode
      (.integer (integerBytes n)) := by
  intro rest
  refine readNumbered_eq_some.2 ⟨_, Element.takes_encode h rest, rfl, ?_⟩
  exact (ofDistinguished?_integer rfl).2 ⟨isShortestInteger_integerBytes n, rfl⟩

/-- An enumerated value is read from the element that it is written as. -/
theorem takes_enumerated {n : Nat} (hn : n < 2 ^ 32) (h : (Element.enumerated n).Fits) :
    (readNumbered TagNumber.enumerated).Takes (Element.enumerated n).encode (.enumerated n) := by
  intro rest
  refine readNumbered_eq_some.2 ⟨_, Element.takes_encode h rest, rfl, ?_⟩
  have hvalue : (integerBytes n).toNat = n := toNat_integerBytes_ofNat n
  have hscalar : ofScalar (Element.enumerated n) = some (.enumerated n) := by
    simp [ofScalar, Element.enumerated, TagNumber.enumerated, hvalue, hn]
  exact hscalar

/-- An integer of 64 bits is taken from the element that it is written as. -/
theorem int64?_integer {n : Int} (h : IsInt64 n) : (Element.integer n).int64? = some n := by
  rw [Element.int64?, if_pos ⟨rfl, rfl⟩]
  exact toInt64?_integerBytes h

end Value

end Attestation.Der
