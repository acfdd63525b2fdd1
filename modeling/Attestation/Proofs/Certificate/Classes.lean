import Attestation.Certificate.Extension
import Attestation.Proofs.KeyDescription.Encoding

/-!
# Tags are told by their numbers

Inside the extensions, an element of any class but the universal one is taken by the number of its
tag. So an entry of a list of authorizations may be of any class
(`AuthorizationList.ofEntries_class`), and one more entry goes unnoticed exactly if its number has
no meaning, or if it holds no purposes (`AuthorizationList.Neutral`); and the nonce of an anonymous
attestation is looked for in the first part with its number, of whatever class but the universal one
(`Certificate.MayHoldNonce`).
-/

namespace Attestation

open Der (Element Value lengthLimit)

namespace AuthorizationList

/-- An entry that changes no list: its number has no meaning, or it holds no purposes. -/
def Neutral (e : Element) : Prop :=
  e.number ≠ purposesNumber ∧ e.number ≠ allApplicationsNumber ∧ e.number ≠ originNumber ∨
    e.number = purposesNumber ∧ HoldsPurposes e.content []

/-- A neutral entry adds nothing to a list. -/
theorem Neutral.add?_eq {e : Element} (h : Neutral e) (list : AuthorizationList) :
    add? list (.tagged e.number e.content) = some list := by
  rcases h with ⟨hpurposes, hall, horigin⟩ | ⟨hpurposes, hholds⟩
  · simp [add?, hpurposes, hall, horigin]
  · simp [add?, hpurposes, purposes?_eq_some.2 hholds]

/-- An entry that leaves the empty list as it is changes no list. -/
theorem neutral_of_add? {e : Element} (h : add? {} (.tagged e.number e.content) = some {}) :
    Neutral e := by
  rw [add?] at h
  split at h
  · rename_i hpurposes
    obtain ⟨ps, hps, hlist⟩ := Option.bind_eq_some_iff.1 h
    simp only [List.nil_append, Option.pure_def, Option.some.injEq, mk.injEq, and_true] at hlist
    subst hlist
    exact .inr ⟨hpurposes, purposes?_eq_some.1 hps⟩
  split at h
  · cases h
  split at h
  · obtain ⟨n, -, hlist⟩ := Option.bind_eq_some_iff.1 h
    cases hlist
  · rename_i hpurposes hall horigin
    exact .inl ⟨hpurposes, hall, horigin⟩

/-- An entry of another class than the universal one is added by its number. -/
theorem readFrom_insert {front back : Bytes} (hfront : Boundary front) {e : Element} (he : e.Fits)
    (hclass : e.tagClass ≠ .universal) (start : AuthorizationList) :
    readFrom start (front ++ (e.encode ++ back)) = (readFrom start front).bind fun list =>
      (add? list (.tagged e.number e.content)).bind fun next => readFrom next back := by
  have hread := read_of_not_universal (Element.takes_encode he back) hclass
  simp only [readFrom_append hfront, readFrom_of_read hread]

/-- What a sequence of entries is read as. -/
def ofEntries (content : Bytes) : Option (AuthorizationList × Bytes) :=
  read (Element.sequence content).encode

/-- Entries are all read into one list, which nothing is left of. -/
theorem ofEntries_eq {content : Bytes} (h : content.length < lengthLimit) :
    ofEntries content = (readFrom {} content).map fun list => (list, []) := by
  rw [ofEntries]
  rw [← List.append_nil (Element.sequence content).encode]
  exact read_append (Element.fits_sequence h) []

section
variable {e : Element} {front back : Bytes}

/-- A neutral entry may stand between any others, and the list is the same without it. -/
theorem Neutral.ofEntries_insert (h : Neutral e) (he : e.Fits) (hclass : e.tagClass ≠ .universal)
    (hfront : Boundary front) (hroom : (front ++ e.encode ++ back).length < lengthLimit) :
    ofEntries (front ++ e.encode ++ back) = ofEntries (front ++ back) := by
  have hless : (front ++ back).length < lengthLimit := by
    simp only [List.length_append] at hroom ⊢
    omega
  rw [ofEntries_eq hroom, ofEntries_eq hless, List.append_assoc,
    readFrom_insert hfront he hclass, readFrom_append hfront]
  simp only [h.add?_eq, Option.bind_some]

/-- An entry that changes nothing where it stands alone is neutral. -/
theorem neutral_of_ofEntries (he : e.Fits) (hclass : e.tagClass ≠ .universal)
    (hlength : e.encode.length < lengthLimit)
    (h : ofEntries ([] ++ e.encode ++ []) = ofEntries ([] ++ [])) : Neutral e := by
  have hnil : ([] : Bytes).length < lengthLimit := Nat.pow_pos (by decide)
  have hinsert : readFrom {} ([] ++ (e.encode ++ [])) = _ :=
    readFrom_insert ⟨[], rfl⟩ he hclass {}
  simp only [List.nil_append, List.append_nil, readFrom_nil, Option.bind_some,
    Option.bind_fun_some] at hinsert h
  rw [ofEntries_eq hlength, ofEntries_eq hnil, readFrom_nil, hinsert, Option.map_some] at h
  obtain ⟨list, hlist, heq⟩ := Option.map_eq_some_iff.1 h
  cases heq
  exact neutral_of_add? hlist

/-- The class of an entry does not matter, as long as it is not the universal one. -/
theorem ofEntries_class (he : e.Fits) (hclass : e.tagClass ≠ .universal) {c : Der.TagClass}
    (hc : c ≠ .universal) (hfront : Boundary front)
    (hroom : (front ++ e.encode ++ back).length < lengthLimit) :
    ofEntries (front ++ Element.encode { e with tagClass := c } ++ back) =
      ofEntries (front ++ e.encode ++ back) := by
  have hroom' :
      (front ++ Element.encode { e with tagClass := c } ++ back).length < lengthLimit := by
    simpa only [List.length_append, e.length_encode_class c] using hroom
  have he' : Element.Fits { e with tagClass := c } := ⟨he.number, he.length⟩
  rw [ofEntries_eq hroom', ofEntries_eq hroom, List.append_assoc, List.append_assoc,
    readFrom_insert hfront he hclass, readFrom_insert hfront he' hc]

end

end AuthorizationList

namespace Certificate

/-- The nonce is looked for in the element. -/
def MayHoldNonce (e : Element) : Prop :=
  e.tagClass ≠ .universal ∧ e.number = nonceNumber

instance (e : Element) : Decidable (MayHoldNonce e) :=
  inferInstanceAs (Decidable (_ ∧ _))

/-- The element is well-formed as a part of a sequence. -/
def Readable (e : Element) : Prop :=
  ∃ v, Value.ofElement (Value.maxDepth - 1) e = some v

/-- An element of another class than the universal one can be read whatever it holds. -/
theorem readable_of_class {e : Element} (h : e.tagClass ≠ .universal) : Readable e :=
  ⟨.tagged e.number e.content, if_pos h⟩

/-- A part that cannot hold the nonce is passed over. -/
theorem nonceContent?_cons_of_ne {v : Value} (h : ∀ content, v ≠ .tagged nonceNumber content)
    (vs : List Value) : nonceContent? (v :: vs) = nonceContent? vs := by
  rw [nonceContent?, List.findSome?_cons]
  cases v with
  | tagged number content =>
    have hne : number ≠ nonceNumber := fun hnumber => h content (hnumber ▸ rfl)
    simp [hne, nonceContent?]
  | _ => rfl

/-- The first part that may hold the nonce is the one that is read. -/
theorem nonceContent?_cons (content : Bytes) (vs : List Value) :
    nonceContent? (.tagged nonceNumber content :: vs) = some content := by
  simp [nonceContent?]

/-- An element of the universal class is no part that may hold the nonce. -/
theorem ofScalar_ne_tagged (e : Element) (content : Bytes) :
    Value.ofScalar e ≠ some (.tagged nonceNumber content) := by
  unfold Value.ofScalar
  split
  all_goals simp_all [Value.checked, nonceNumber]

/-- A part of a universal type is not kept under a number, and every other one under its own. -/
theorem ofElement_ne_tagged {depth : Nat} {e : Element} {v : Value}
    (h : Value.ofElement (depth + 1) e = some v) (hnonce : ¬MayHoldNonce e) (content : Bytes) :
    v ≠ .tagged nonceNumber content := by
  rintro rfl
  unfold Value.ofElement at h
  split at h
  · rename_i hclass
    obtain ⟨hnumber, -⟩ := Value.tagged.inj (Option.some.inj h)
    exact hnonce ⟨hclass, hnumber⟩
  split at h
  · split at h
    · obtain ⟨es, -, hes⟩ := Option.bind_eq_some_iff.1 h
      obtain ⟨vs, -, hvs⟩ := Option.bind_eq_some_iff.1 hes
      split at hvs <;> cases hvs
    · cases h
  · exact ofScalar_ne_tagged e content h

/-- An element that may hold the nonce is read as its number and content. -/
theorem ofElement_of_mayHoldNonce {depth : Nat} {e : Element} (h : MayHoldNonce e) :
    Value.ofElement (depth + 1) e = some (.tagged nonceNumber e.content) := by
  rw [Value.ofElement, if_pos h.1, h.2]

/-- The part that the nonce is taken from is the first one that may hold it. -/
theorem nonceContent?_parts {depth : Nat} {es : List Element} {vs : List Value}
    (h : es.map (Value.ofElement (depth + 1)) = vs.map some) :
    nonceContent? vs = (es.find? fun e => MayHoldNonce e).map Element.content := by
  induction es generalizing vs with
  | nil =>
    cases vs with
    | nil => rfl
    | cons v vs => cases h
  | cons e es ih =>
    cases vs with
    | nil => cases h
    | cons v vs =>
      obtain ⟨hv, hvs⟩ := List.cons.inj h
      by_cases hnonce : MayHoldNonce e
      · cases (ofElement_of_mayHoldNonce hnonce).symm.trans hv
        rw [nonceContent?_cons, List.find?_cons_of_pos (by simpa using hnonce), Option.map_some]
      · rw [nonceContent?_cons_of_ne (ofElement_ne_tagged hv hnonce), ih hvs,
          List.find?_cons_of_neg (by simpa using hnonce)]

/-- The elements, written one after the other. -/
def partBytes (es : List Element) : Bytes :=
  es.flatMap Element.encode

/-- Parts that are well-formed and that a sequence has room for. -/
structure AreParts (es : List Element) : Prop where
  number : ∀ e ∈ es, e.number < 2 ^ 32
  readable : ∀ e ∈ es, Readable e
  length : (partBytes es).length < lengthLimit

/-- Elements that can be read are read one by one. -/
theorem exists_parts {es : List Element} (h : ∀ e ∈ es, Readable e) :
    ∃ vs : List Value, es.map (Value.ofElement (Value.maxDepth - 1)) = vs.map some := by
  induction es with
  | nil => exact ⟨[], rfl⟩
  | cons e es ih =>
    obtain ⟨⟨v, hv⟩, h⟩ := List.forall_mem_cons.1 h
    obtain ⟨vs, hvs⟩ := ih h
    exact ⟨v :: vs, by rw [List.map_cons, hv, hvs, List.map_cons]⟩

/-- The parts of a nonce are read from the sequence of them. -/
theorem AreParts.read {es : List Element} (h : AreParts es) :
    ∃ vs, Value.read (Element.sequence (partBytes es)).encode = some (.sequence vs, []) ∧
      es.map (Value.ofElement (Value.maxDepth - 1)) = vs.map some := by
  obtain ⟨vs, hvs⟩ := exists_parts h.readable
  have hsequence := Element.fits_sequence h.length
  have hfits (e : Element) (he : e ∈ es) : e.Fits :=
    Element.fits_of_length_le (h.number e he) (hsequence.length_part_le rfl he)
  have hall : Reader.all Element.readBasic (partBytes es).length (partBytes es) =
      some (es.map id) :=
    Reader.all_flatMap rfl (fun e he => Element.takesBasic_encode (hfits e he)) (Nat.le_refl _)
  rw [List.map_id] at hall
  have hread := (Element.takes_encode hsequence).read_eq
  refine ⟨vs, Value.read_eq_some.2 ⟨_, hread, ?_⟩, hvs⟩
  exact (Value.ofDistinguished?_parts rfl (.inl rfl)).2
    ⟨rfl, es, vs, hall, mapM_eq_some.2 hvs, rfl⟩

/-- The nonce in a sequence of the parts. -/
def nonceIn (es : List Element) : Result Bytes :=
  appleNonceOf (Element.sequence (partBytes es)).encode

/-- The octet string inside the part that holds a nonce. -/
def nonceOfPart (part : Option Element) : Result Bytes := do
  let e ← orFault .appleNonceMissing part
  let (octets, _) ← orFault .appleNonce
    (Element.readNumbered Der.TagNumber.octetString e.content)
  return octets.content

/-- The nonce is in the first part that may hold it. -/
theorem AreParts.nonceIn_eq {es : List Element} (h : AreParts es) :
    nonceIn es = nonceOfPart (es.find? fun e => MayHoldNonce e) := by
  obtain ⟨vs, hread, hvs⟩ := h.read
  simp only [nonceIn, appleNonceOf, hread, nonceContent?_parts hvs, nonceOfPart]
  cases es.find? fun e => MayHoldNonce e <;> rfl

/-- A part holds the nonce as an octet string, which other bytes may follow. -/
theorem nonceOfPart_eq_ok {part : Option Element} {nonce : Bytes} :
    nonceOfPart part = .ok nonce ↔ ∃ e octets rest, part = some e ∧
      Element.read e.content = some (octets, rest) ∧
      octets.number = Der.TagNumber.octetString ∧ octets.content = nonce := by
  rw [nonceOfPart, bind_eq_ok]
  simp only [orFault_eq_ok, bind_eq_ok]
  refine exists_congr fun e => ⟨fun h => ?_, fun h => ?_⟩
  · obtain ⟨he, ⟨octets, rest⟩, hoctets, hnonce⟩ := h
    obtain ⟨⟨octets', rest'⟩, hread, hnumber⟩ := Option.bind_eq_some_iff.1 hoctets
    dsimp only at hnumber
    split at hnumber
    · rename_i hnumber'
      cases hnumber
      exact ⟨octets, rest, he, hread, hnumber', Except.ok.inj hnonce⟩
    · cases hnumber
  · obtain ⟨octets, rest, he, hread, hnumber, hnonce⟩ := h
    refine ⟨he, (octets, rest), ?_, congrArg Except.ok hnonce⟩
    simp [Element.readNumbered, hread, hnumber]

/-- A part that may hold a nonce is not ignored: alone it is not missing. -/
theorem nonceOfPart_some_ne (e : Element) : nonceOfPart (some e) ≠ nonceOfPart none := by
  cases hread : Element.readNumbered Der.TagNumber.octetString e.content <;>
    simp [nonceOfPart, hread, orFault, bind, Except.bind, pure, Except.pure]

/-- A part cannot hold the nonce if it is of the universal class or has another number. -/
theorem not_mayHoldNonce_iff {e : Element} :
    ¬MayHoldNonce e ↔ e.tagClass = .universal ∨ e.number ≠ nonceNumber := by
  rw [MayHoldNonce, Decidable.not_and_iff_or_not, Decidable.not_not]

/-- A part that cannot hold the nonce does not change which part is the first that may. -/
theorem find?_insert {front back : List Element} {e : Element} (h : ¬MayHoldNonce e) :
    (front ++ e :: back).find? (fun e => MayHoldNonce e) =
      (front ++ back).find? fun e => MayHoldNonce e := by
  rw [List.find?_append, List.find?_append, List.find?_cons_of_neg (by simpa using h)]

/-- One element that can be read is a list of parts. -/
theorem AreParts.single {e : Element} (hnumber : e.number < 2 ^ 32) (hreadable : Readable e)
    (hlength : e.encode.length < lengthLimit) : AreParts [e] :=
  ⟨by simpa using hnumber, by simpa using hreadable, by simpa [partBytes] using hlength⟩

/-- Parts are still parts without one of them. -/
theorem AreParts.of_insert {front back : List Element} {e : Element}
    (h : AreParts (front ++ e :: back)) : AreParts (front ++ back) := by
  have hsublist : (front ++ back).Sublist (front ++ e :: back) :=
    (List.sublist_cons_self e back).append_left front
  refine ⟨fun e' he' => h.number e' (hsublist.mem he'),
    fun e' he' => h.readable e' (hsublist.mem he'), Nat.lt_of_le_of_lt ?_ h.length⟩
  simp only [partBytes, List.flatMap_append, List.flatMap_cons, List.length_append]
  omega

/-- A part that cannot hold the nonce does not change what is found. -/
theorem AreParts.nonceIn_insert {front back : List Element} {e : Element}
    (h : AreParts (front ++ e :: back)) (he : e.tagClass = .universal ∨ e.number ≠ nonceNumber) :
    nonceIn (front ++ e :: back) = nonceIn (front ++ back) := by
  rw [h.nonceIn_eq, h.of_insert.nonceIn_eq, find?_insert (not_mayHoldNonce_iff.2 he)]

/-- A part that changes nothing where it stands alone cannot hold the nonce. -/
theorem AreParts.of_nonceIn_eq {e : Element} (he : AreParts [e]) (h : nonceIn [e] = nonceIn []) :
    e.tagClass = .universal ∨ e.number ≠ nonceNumber := by
  refine not_mayHoldNonce_iff.1 fun hnonce => nonceOfPart_some_ne e ?_
  have hnil : AreParts [] := show AreParts ([] ++ []) from he.of_insert
  rw [he.nonceIn_eq, hnil.nonceIn_eq] at h
  rwa [List.find?_cons_of_pos (by simpa using hnonce), List.find?_nil] at h

end Certificate

open AuthorizationList (Boundary Neutral ofEntries)
open Certificate (AreParts MayHoldNonce Readable nonceIn nonceNumber)

/-- Inside the extensions, tags of all classes but the universal one are told by their numbers
alone. An entry of a list of authorizations is read in the same way whatever its class, and so one
more entry changes no list exactly if it is neutral. The nonce of an anonymous attestation is the
octet string in the first part with its number and of one of these classes, and so one more part
changes no nonce exactly if it is universal or has another number. -/
theorem tags_told_by_number (e : Element) (hnumber : e.number < 2 ^ 32)
    (hlength : e.encode.length < lengthLimit) :
    (e.tagClass ≠ .universal →
      (∀ c front back, c ≠ .universal → Boundary front →
        (front ++ e.encode ++ back).length < lengthLimit →
        ofEntries (front ++ Element.encode { e with tagClass := c } ++ back) =
          ofEntries (front ++ e.encode ++ back)) ∧
      ((∀ front back, Boundary front → (front ++ e.encode ++ back).length < lengthLimit →
        ofEntries (front ++ e.encode ++ back) = ofEntries (front ++ back)) ↔ Neutral e)) ∧
    (Readable e →
      ((∀ front back, AreParts (front ++ e :: back) →
        nonceIn (front ++ e :: back) = nonceIn (front ++ back)) ↔
        e.tagClass = .universal ∨ e.number ≠ nonceNumber)) ∧
    ∀ es nonce, AreParts es → (nonceIn es = .ok nonce ↔
      ∃ e octets rest, (es.find? fun e => MayHoldNonce e) = some e ∧
        Element.read e.content = some (octets, rest) ∧
        octets.number = Der.TagNumber.octetString ∧ octets.content = nonce) := by
  have hfits := Element.fits_of_length_le hnumber (Nat.le_of_lt hlength)
  refine ⟨fun hclass => ⟨fun c front back hc hfront hroom => ?_, ?_⟩, fun hreadable => ?_,
    fun es nonce h => ?_⟩
  · exact AuthorizationList.ofEntries_class hfits hclass hc hfront hroom
  · refine ⟨fun h => ?_, fun h front back hfront hroom => ?_⟩
    · exact AuthorizationList.neutral_of_ofEntries hfits hclass hlength
        (h [] [] ⟨[], rfl⟩ (by simpa using hlength))
    · exact h.ofEntries_insert hfits hclass hfront hroom
  · refine ⟨fun h => ?_, fun h front back hparts => hparts.nonceIn_insert h⟩
    have he := AreParts.single hnumber hreadable hlength
    exact he.of_nonceIn_eq (h [] [] he)
  · rw [h.nonceIn_eq]
    exact Certificate.nonceOfPart_eq_ok

/-- The purpose of signing, as an entry whose tag is of another class. -/
def applicationPurpose : Element :=
  ⟨.application, true, 1, (AuthorizationList.Entry.purposes [2]).content⟩

/-- An origin, as an entry whose tag is of another class. -/
def applicationOrigin : Element :=
  ⟨.application, true, 702, (AuthorizationList.Entry.origin 0).content⟩

/-- A nonce of one byte, in a part of the given class. -/
def noncePart (c : Der.TagClass) (nonce : UInt8) : Element :=
  ⟨c, true, nonceNumber, (Element.octets [nonce]).encode⟩

/-- An entry is read as if it were of the context's class, so some list changes with it; one more
part of another number changes no nonce; and the nonce is taken from the first part, which is not of
the context's class. -/
theorem tags_told_by_number_samples :
    ofEntries
        ([] ++ Element.encode { applicationPurpose with tagClass := .contextSpecific } ++ []) =
      ofEntries ([] ++ applicationPurpose.encode ++ []) ∧
    (¬∀ front back, Boundary front →
      (front ++ applicationPurpose.encode ++ back).length < lengthLimit →
      ofEntries (front ++ applicationPurpose.encode ++ back) = ofEntries (front ++ back)) ∧
    (∀ front back, AreParts (front ++ applicationOrigin :: back) →
      nonceIn (front ++ applicationOrigin :: back) = nonceIn (front ++ back)) ∧
    nonceIn [noncePart .privateUse 1, noncePart .contextSpecific 2] = .ok [1] := by
  obtain ⟨hlists, -, hnonce⟩ :=
    tags_told_by_number applicationPurpose (by decide) (by decide +kernel)
  obtain ⟨-, hpart, -⟩ := tags_told_by_number applicationOrigin (by decide) (by decide +kernel)
  obtain ⟨hclass, hneutral⟩ := hlists (by decide)
  refine ⟨hclass .contextSpecific [] [] (by decide) ⟨[], rfl⟩ (by decide +kernel), ?_, ?_, ?_⟩
  · rw [hneutral]
    have hpurposes : AuthorizationList.purposes? applicationPurpose.content = some [2] := by
      decide +kernel
    rintro (⟨hnumber, -⟩ | ⟨-, hholds⟩)
    · exact hnumber rfl
    · cases hpurposes.symm.trans (AuthorizationList.purposes?_eq_some.2 hholds)
  · exact (hpart (Certificate.readable_of_class (by decide))).2 (.inr (by decide))
  · have hparts : AreParts [noncePart .privateUse 1, noncePart .contextSpecific 2] := by
      refine ⟨by decide, fun e he => Certificate.readable_of_class ?_, by decide +kernel⟩
      simp only [List.mem_cons, List.not_mem_nil, or_false] at he
      rcases he with rfl | rfl <;> decide
    exact (hnonce _ _ hparts).2 ⟨noncePart .privateUse 1, Element.octets [1], [], rfl,
      by decide +kernel, rfl, rfl⟩

/-- An entry of the application's class is interpreted, and so is a part before the one of the
context's class. -/
theorem application_tags_interpreted :
    applicationPurpose.tagClass = .application ∧
      ofEntries applicationPurpose.encode = some (⟨[2], none, false⟩, []) ∧
      ofEntries [] = some (⟨[], none, false⟩, []) ∧
      nonceIn [noncePart .application 1, noncePart .contextSpecific 2] = .ok [1] ∧
      nonceIn [noncePart .contextSpecific 2] = .ok [2] := by
  decide +kernel

end Attestation
