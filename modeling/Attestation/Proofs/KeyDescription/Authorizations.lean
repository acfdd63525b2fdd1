import Attestation.KeyDescription
import Attestation.Proofs.Der.Value

/-!
# Lists of authorizations

A list of authorizations is read entry by entry (`readFrom_of_read`). An `Entry` is what a list may
hold under a tag of the context's class, with a content that fits the tag; what the entries tell
together is `told`, and it is read from the list that they are written in
(`readFrom_nil_entryBytes`). Conversely, a list is refused exactly if one of its entries cannot be
read or holds something else than its tag asks for (`Spoiled`, `readFrom_eq_none`). The type of what
an entry holds is told by the number of its tag.
-/

namespace Attestation

open Der (Element Value IsInt64 lengthLimit)

namespace AuthorizationList

/-! ## What an entry holds -/

/-- The content begins with a set, and the parts of this set are the given integers of 64 bits. -/
def HoldsPurposes (content : Bytes) (ps : List Int) : Prop :=
  ∃ e rest es, Element.read content = some (e, rest) ∧ e.number = Der.TagNumber.set ∧
    e.constructed = true ∧ Reader.all Element.readBasic e.content.length e.content = some es ∧
    es.map Element.int64? = ps.map some

/-- The content begins with an integer in its shortest form, which is the given one of 64 bits. -/
def HoldsOrigin (content : Bytes) (n : Int) : Prop :=
  ∃ e rest, Element.read content = some (e, rest) ∧ e.number = Der.TagNumber.integer ∧
    Der.isShortestInteger e.content = true ∧ (Value.integer e.content).toInt64? = some n

/-- The purposes are the integers of a set. -/
theorem purposes?_eq_some {content : Bytes} {ps : List Int} :
    purposes? content = some ps ↔ HoldsPurposes content ps := by
  have hparts (es : List Element) : es.map Element.int64? =
      es.map fun e => (Value.ofElement (Value.maxDepth - 1) e).bind Value.toInt64? :=
    List.map_congr_left fun e _ => (Value.ofElement_bind_toInt64? 48 e).symm
  refine ⟨fun h => ?_, fun ⟨e, rest, es, he, hnumber, hconstructed, hes, hps⟩ => ?_⟩
  · obtain ⟨⟨v, rest⟩, hread, hv⟩ := Option.bind_eq_some_iff.1 h
    obtain ⟨e, he, hnumber, hvalue⟩ := Value.readNumbered_eq_some.1 hread
    obtain ⟨hconstructed, es, vs, hes, hvs, rfl⟩ := (Value.ofDistinguished?_set hnumber).1 hvalue
    refine ⟨e, rest, es, he, hnumber, hconstructed, hes, ?_⟩
    rw [hparts]
    exact exists_mapM_mapM.1 ⟨vs, hvs, hv⟩
  · rw [hparts] at hps
    obtain ⟨vs, hvs, hmap⟩ := exists_mapM_mapM.2 hps
    have hread := Value.readNumbered_eq_some.2 ⟨e, he, hnumber,
      (Value.ofDistinguished?_set hnumber).2 ⟨hconstructed, es, vs, hes, hvs, rfl⟩⟩
    exact Option.bind_eq_some_iff.2 ⟨_, hread, hmap⟩

/-- The origin is an integer. -/
theorem origin?_eq_some {content : Bytes} {n : Int} :
    origin? content = some n ↔ HoldsOrigin content n := by
  refine ⟨fun h => ?_, fun ⟨e, rest, he, hnumber, hshortest, hn⟩ => ?_⟩
  · obtain ⟨⟨v, rest⟩, hread, hv⟩ := Option.bind_eq_some_iff.1 h
    obtain ⟨e, he, hnumber, hvalue⟩ := Value.readNumbered_eq_some.1 hread
    obtain ⟨hshortest, rfl⟩ := (Value.ofDistinguished?_integer hnumber).1 hvalue
    exact ⟨e, rest, he, hnumber, hshortest, hv⟩
  · have hread := Value.readNumbered_eq_some.2 ⟨e, he, hnumber,
      (Value.ofDistinguished?_integer hnumber).2 ⟨hshortest, rfl⟩⟩
    exact Option.bind_eq_some_iff.2 ⟨_, hread, hn⟩

/-- The value is tagged as purposes or as an origin, and holds something else. -/
inductive Refused : Value → Prop
  | purposes {content : Bytes} : (∀ ps, ¬HoldsPurposes content ps) →
    Refused (.tagged purposesNumber content)
  | origin {content : Bytes} : (∀ n, ¬HoldsOrigin content n) →
    Refused (.tagged originNumber content)

/-- An entry is refused exactly if it is one of purposes or an origin that cannot be read. -/
theorem refused_tagged {number : Nat} {content : Bytes} : Refused (.tagged number content) ↔
    number = purposesNumber ∧ purposes? content = none ∨
      number = originNumber ∧ origin? content = none := by
  simp only [Option.eq_none_iff_forall_ne_some, ne_eq, purposes?_eq_some, origin?_eq_some]
  refine ⟨fun h => ?_, fun h => ?_⟩
  · cases h with
    | purposes hnone => exact .inl ⟨rfl, hnone⟩
    | origin hnone => exact .inr ⟨rfl, hnone⟩
  · rcases h with ⟨rfl, hnone⟩ | ⟨rfl, hnone⟩
    · exact .purposes hnone
    · exact .origin hnone

/-- An entry cannot be added exactly if it is refused, whatever the list holds. -/
theorem add?_eq_none {list : AuthorizationList} {v : Value} :
    add? list v = none ↔ Refused v := by
  cases v with
  | tagged number content =>
    rw [refused_tagged, add?]
    split
    · rename_i hpurposes
      subst hpurposes
      cases purposes? content <;> simp [purposesNumber, originNumber]
    split
    · rename_i hall
      subst hall
      simp [allApplicationsNumber, purposesNumber, originNumber]
    split
    · rename_i horigin
      subst horigin
      cases origin? content <;> simp [purposesNumber, originNumber]
    · rename_i hpurposes hall horigin
      simp [hpurposes, horigin]
  | _ => exact iff_of_false nofun nofun

/-! ## Entry by entry -/

/-- The list that a content adds to the one at the start. -/
def readFrom (start : AuthorizationList) (content : Bytes) : Option AuthorizationList := do
  let entries ← Reader.all Value.read content.length content
  entries.foldlM add? start

/-- At the end of the entries the list is complete. -/
theorem readFrom_nil (start : AuthorizationList) : readFrom start [] = some start :=
  rfl

/-- Bytes that are no element end the reading without a list. -/
theorem readFrom_of_none {start : AuthorizationList} {b : Bytes} (hne : b ≠ [])
    (h : Value.read b = none) : readFrom start b = none := by
  rw [readFrom, Reader.all_of_none hne h]
  rfl

/-- The first entry is added, and the others are read into the new list. -/
theorem readFrom_of_read {start : AuthorizationList} {b rest : Bytes} {v : Value}
    (h : Value.read b = some (v, rest)) :
    readFrom start b = (add? start v).bind fun next => readFrom next rest := by
  simp only [readFrom]
  rw [Reader.all_of_read Value.selfDelimiting_read Value.read_nil h]
  cases Reader.all Value.read rest.length rest with
  | none => cases add? start v <;> rfl
  | some vs => rfl

/-- The bytes end where an entry ends. -/
def Boundary (b : Bytes) : Prop :=
  ∃ vs, Reader.all Value.read b.length b = some vs

/-- From a boundary on, the list that was read so far is continued. -/
theorem readFrom_append {start : AuthorizationList} {front : Bytes} (h : Boundary front)
    (more : Bytes) :
    readFrom start (front ++ more) =
      (readFrom start front).bind fun next => readFrom next more := by
  obtain ⟨vs, hvs⟩ := h
  simp only [readFrom]
  rw [Reader.all_append Value.selfDelimiting_read Value.read_nil hvs, hvs]
  simp only [Option.bind_eq_bind, Option.bind_some]
  cases Reader.all Value.read more.length more with
  | none => cases vs.foldlM add? start <;> rfl
  | some ws => exact List.foldlM_append

/-- The content has an entry that cannot be read, or that is refused. -/
inductive Spoiled : Bytes → Prop
  | malformed {b : Bytes} : b ≠ [] → Value.read b = none → Spoiled b
  | refused {b rest : Bytes} {v : Value} : Value.read b = some (v, rest) → Refused v → Spoiled b
  | later {b rest : Bytes} {v : Value} : Value.read b = some (v, rest) → Spoiled rest → Spoiled b

/-- Entries that are spoiled give no list. -/
theorem Spoiled.readFrom_eq_none {b : Bytes} (h : Spoiled b) (start : AuthorizationList) :
    readFrom start b = none := by
  induction h generalizing start with
  | malformed hne hread => exact readFrom_of_none hne hread
  | refused hread hrefused => rw [readFrom_of_read hread, add?_eq_none.2 hrefused, Option.bind_none]
  | later hread _ ih =>
    rw [readFrom_of_read hread]
    cases add? start _ with
    | none => rfl
    | some next => exact ih next

/-- Entries give no list exactly if they are spoiled, whatever the list holds before. -/
theorem readFrom_eq_none {start : AuthorizationList} {b : Bytes} :
    readFrom start b = none ↔ Spoiled b := by
  refine ⟨fun h => ?_, fun h => h.readFrom_eq_none start⟩
  induction hn : b.length using Nat.strongRecOn generalizing b start with
  | ind n ih =>
    by_cases hne : b = []
    · subst hne
      cases h
    · cases hread : Value.read b with
      | none => exact .malformed hne hread
      | some p =>
        obtain ⟨v, rest⟩ := p
        have hlt := Value.selfDelimiting_read.length_lt Value.read_nil hread
        rw [readFrom_of_read hread] at h
        cases hadd : add? start v with
        | none => exact .refused hread (add?_eq_none.1 hadd)
        | some next =>
          rw [hadd, Option.bind_some] at h
          exact .later hread (ih _ (hn ▸ hlt) h rfl)

/-! ## Entries that fit their tags -/

/-- An entry of a list, under a tag of the context's class. -/
inductive Entry where
  | purposes (ps : List Int)
  | origin (n : Int)
  | allApplications (content : Bytes)
  /-- Any other tag, with any content. -/
  | other (number : Nat) (content : Bytes)
  deriving DecidableEq, Repr

namespace Entry

/-- The number of the tag. -/
def number : Entry → Nat
  | purposes _ => purposesNumber
  | origin _ => originNumber
  | allApplications _ => allApplicationsNumber
  | other number _ => number

/-- What is under the tag. -/
def content : Entry → Bytes
  | purposes ps => (Element.set (ps.flatMap fun p => (Element.integer p).encode)).encode
  | origin n => (Element.integer n).encode
  | allApplications content => content
  | other _ content => content

/-- The element that the entry is. -/
def element (entry : Entry) : Element :=
  ⟨.contextSpecific, true, entry.number, entry.content⟩

/-- The integers have 64 bits, and a number of a tag is below 2 ^ 32 and none of those that have a
meaning. -/
def InRange : Entry → Prop
  | purposes ps => ∀ p ∈ ps, IsInt64 p
  | origin n => IsInt64 n
  | allApplications _ => True
  | other number _ =>
    number < 2 ^ 32 ∧ number ≠ purposesNumber ∧ number ≠ allApplicationsNumber ∧
      number ≠ originNumber

instance : (entry : Entry) → Decidable entry.InRange
  | purposes ps => inferInstanceAs (Decidable (∀ p ∈ ps, IsInt64 p))
  | origin n => inferInstanceAs (Decidable (IsInt64 n))
  | allApplications _ => isTrue trivial
  | other _ _ => inferInstanceAs (Decidable (_ ∧ _))

/-- The number of an entry can be written. -/
theorem InRange.number_lt {entry : Entry} (h : entry.InRange) : entry.number < 2 ^ 32 := by
  cases entry with
  | other number content => exact h.1
  | _ => simp [number, purposesNumber, originNumber, allApplicationsNumber]

end Entry

/-- The entries, written one after the other. -/
def entryBytes (entries : List Entry) : Bytes :=
  entries.flatMap fun entry => entry.element.encode

/-- The list that the entries tell: all purposes in their order, the last origin, and whether one of
the entries says that all applications may use the key. -/
def told (entries : List Entry) : AuthorizationList where
  purposes := entries.flatMap fun
    | .purposes ps => ps
    | _ => []
  origin := (entries.filterMap fun
    | .origin n => some n
    | _ => none).getLast?
  allApplications := entries.any fun
    | .allApplications _ => true
    | _ => false

/-- The list after one more entry. -/
def after (list : AuthorizationList) : Entry → AuthorizationList
  | .purposes ps => { list with purposes := list.purposes ++ ps }
  | .origin n => { list with origin := some n }
  | .allApplications _ => { list with allApplications := true }
  | .other _ _ => list

/-- Entries add to a list what they tell without it. -/
theorem foldl_after (entries : List Entry) (list : AuthorizationList) :
    entries.foldl after list = ⟨list.purposes ++ (told entries).purposes,
      (told entries).origin.or list.origin,
      list.allApplications || (told entries).allApplications⟩ := by
  induction entries generalizing list with
  | nil => simp [told]
  | cons entry entries ih =>
    rw [List.foldl_cons, ih]
    cases entry with
    | purposes ps => simp [after, told]
    | origin n => simp [after, told, List.getLast?_cons]
    | allApplications content => simp [after, told]
    | other number content => simp [after, told]

/-- Purposes are read from the content that they are written with. -/
theorem holdsPurposes_encode {ps : List Int} (hps : ∀ p ∈ ps, IsInt64 p)
    (hlength : (Entry.purposes ps).content.length ≤ lengthLimit) :
    HoldsPurposes (Entry.purposes ps).content ps := by
  let parts := ps.flatMap fun p => (Element.integer p).encode
  have hfits : (Element.set parts).Fits :=
    Element.fits_of_length_le (show Der.TagNumber.set < 2 ^ 32 by decide) hlength
  have hpart (p : Int) (hp : p ∈ ps) : (Element.integer p).Fits := by
    have hlength := hfits.length_part_le rfl hp
    exact Element.fits_of_length_le (show Der.TagNumber.integer < 2 ^ 32 by decide) hlength
  have hall : Reader.all Element.readBasic parts.length parts = some (ps.map Element.integer) :=
    Reader.all_flatMap rfl (fun p hp => Element.takesBasic_encode (hpart p hp)) (Nat.le_refl _)
  refine ⟨_, [], _, (Element.takes_encode hfits).read_eq, rfl, rfl, hall, ?_⟩
  rw [List.map_map]
  exact List.map_congr_left fun p hp => Value.int64?_integer (hps p hp)

/-- An origin is read from the content that it is written with. -/
theorem holdsOrigin_encode {n : Int} (hn : IsInt64 n)
    (hlength : (Entry.origin n).content.length ≤ lengthLimit) :
    HoldsOrigin (Entry.origin n).content n := by
  have hfits : (Element.integer n).Fits :=
    Element.fits_of_length_le (show Der.TagNumber.integer < 2 ^ 32 by decide) hlength
  exact ⟨_, [], (Element.takes_encode hfits).read_eq, rfl,
    Der.isShortestInteger_integerBytes n, Der.toInt64?_integerBytes hn⟩

/-- An entry that was written is added as what it tells. -/
theorem add?_entry {entry : Entry} (hrange : entry.InRange)
    (hlength : entry.content.length ≤ lengthLimit) (list : AuthorizationList) :
    add? list (.tagged entry.number entry.content) = some (list.after entry) := by
  cases entry with
  | purposes ps =>
    have hholds := purposes?_eq_some.2 (holdsPurposes_encode hrange hlength)
    simp [add?, Entry.number, hholds, after]
  | origin n =>
    have hholds := origin?_eq_some.2 (holdsOrigin_encode hrange hlength)
    simp [add?, Entry.number, hholds, after, originNumber, purposesNumber, allApplicationsNumber]
  | allApplications content =>
    simp [add?, Entry.number, after, purposesNumber, allApplicationsNumber]
  | other number content =>
    obtain ⟨-, hpurposes, hall, horigin⟩ := hrange
    simp [add?, Entry.number, after, hpurposes, hall, horigin]

/-- An element of another class than the universal one is kept under its number. -/
theorem read_of_not_universal {b rest : Bytes} {e : Element} (h : Element.read b = some (e, rest))
    (hclass : e.tagClass ≠ .universal) :
    Value.read b = some (.tagged e.number e.content, rest) := by
  refine Value.read_eq_some.2 ⟨e, h, ?_⟩
  rw [Value.ofDistinguished?, if_pos (.inl hclass), Value.maxDepth, Value.ofElement, if_pos hclass]

/-- The entries are read from the list that they are written in. -/
theorem readFrom_entryBytes {entries : List Entry} (hrange : ∀ entry ∈ entries, entry.InRange)
    (hlength : (entryBytes entries).length ≤ lengthLimit) (start : AuthorizationList) :
    readFrom start (entryBytes entries) = some (entries.foldl after start) := by
  induction entries generalizing start with
  | nil => rfl
  | cons entry entries ih =>
    obtain ⟨hentry, hrange⟩ := List.forall_mem_cons.1 hrange
    rw [entryBytes, List.flatMap_cons, List.length_append] at hlength
    have hfits : entry.element.Fits :=
      Element.fits_of_length_le hentry.number_lt (Nat.le_trans (Nat.le_add_right _ _) hlength)
    have hread := read_of_not_universal (Element.takes_encode hfits (entryBytes entries)) nofun
    have hadd : add? start (.tagged entry.element.number entry.element.content) =
        some (start.after entry) := add?_entry hentry (Nat.le_of_lt hfits.length) start
    rw [entryBytes, List.flatMap_cons, ← entryBytes, readFrom_of_read hread, hadd,
      Option.bind_some, ih hrange (Nat.le_trans (Nat.le_add_left _ _) hlength), List.foldl_cons]

/-- Entries that were written are read into the list of what they tell. -/
theorem readFrom_nil_entryBytes {entries : List Entry}
    (hrange : ∀ entry ∈ entries, entry.InRange)
    (hlength : (entryBytes entries).length ≤ lengthLimit) :
    readFrom {} (entryBytes entries) = some (told entries) := by
  rw [readFrom_entryBytes hrange hlength, foldl_after]
  simp

end AuthorizationList

end Attestation
