import Attestation.Proofs.KeyDescription.Authorizations

/-!
# Descriptions of keys, written and read back

A description is a sequence of eight fields (`Fields`), of which the last two are the lists of
authorizations. `KeyDescription.parse_recovers` is the main statement: what was written is read
back, each list from its own field, and a description is refused exactly if one of its lists is
spoiled. A description with bytes after it is refused in any case.
-/

namespace Attestation

open Der (Element Value IsInt64 lengthLimit)

/-- A list is read from its sequence. -/
theorem AuthorizationList.read_append {content : Bytes} (h : (Element.sequence content).Fits)
    (rest : Bytes) :
    read ((Element.sequence content).encode ++ rest) =
      (readFrom {} content).map fun list => (list, rest) := by
  rw [read, Element.takes_sequence h rest, readFrom]
  simp only [Option.bind_eq_bind, Option.bind_some, Option.pure_def]
  cases Reader.all Value.read content.length content with
  | none => rfl
  | some vs =>
    simp only [Option.bind_some]
    cases vs.foldlM add? {} <;> rfl

namespace KeyDescription

/-- The fields of a description; of the lists, the contents of their sequences. -/
structure Fields where
  version : Int
  securityLevel : Nat
  keymasterVersion : Int
  keymasterLevel : Nat
  challenge : Bytes
  uniqueId : Bytes
  softwareEnforced : Bytes
  teeEnforced : Bytes

namespace Fields

variable {f : Fields}

/-- The elements of the fields, in their order. -/
def elements (f : Fields) : List Element :=
  [.integer f.version, .enumerated f.securityLevel, .integer f.keymasterVersion,
    .enumerated f.keymasterLevel, .octets f.challenge, .octets f.uniqueId,
    .sequence f.softwareEnforced, .sequence f.teeEnforced]

/-- The description as a sequence of its fields. -/
def encode (f : Fields) : Bytes :=
  (Element.sequence (f.elements.flatMap Element.encode)).encode

/-- The version that is read has 64 bits, levels have 32, and all lengths can be written. -/
structure Fits (f : Fields) : Prop where
  version : IsInt64 f.version
  securityLevel : f.securityLevel < 2 ^ 32
  keymasterLevel : f.keymasterLevel < 2 ^ 32
  length : f.encode.length ≤ lengthLimit

/-- Fields that fit are the content of a sequence that does. -/
theorem Fits.sequence (h : f.Fits) :
    (Element.sequence (f.elements.flatMap Element.encode)).Fits :=
  Element.fits_sequence_of_le h.length

/-- Each of the fields that fit does. -/
theorem Fits.element (h : f.Fits) {e : Element} (he : e ∈ f.elements) : e.Fits := by
  refine Element.fits_of_length_le ?_ ?_
  · simp only [elements, List.mem_cons, List.not_mem_nil, or_false] at he
    rcases he with rfl | rfl | rfl | rfl | rfl | rfl | rfl | rfl <;>
      simp [Element.integer, Element.enumerated, Element.octets, Element.sequence,
        Der.TagNumber.integer, Der.TagNumber.enumerated, Der.TagNumber.octetString,
        Der.TagNumber.sequence]
  · exact h.sequence.length_part_le rfl he

end Fields

/-! ## Reading the fields -/

/-- An integer is read from the element that it is written as. -/
theorem takes_readInteger {n : Int} (hn : IsInt64 n) (h : (Element.integer n).Fits) :
    readInteger.Takes (Element.integer n).encode n := by
  intro rest
  simp [readInteger, Value.takes_integer h rest, Der.toInt64?_integerBytes hn]

/-- An enumerated value is read from the element that it is written as. -/
theorem takes_readEnumerated {n : Nat} (hn : n < 2 ^ 32) (h : (Element.enumerated n).Fits) :
    readEnumerated.Takes (Element.enumerated n).encode n := by
  intro rest
  simp [readEnumerated, Value.takes_enumerated hn h rest, Value.toWord32?]

/-- An octet string is read from the element that it is written as. -/
theorem takes_readOctets {b : Bytes} (h : (Element.octets b).Fits) :
    readOctets.Takes (Element.octets b).encode b := by
  intro rest
  rw [readOctets, Element.readNumbered, Element.takes_encode h rest]
  rfl

/-- The fields are read in their order, and the two lists from their contents. -/
theorem ofContent?_elements {f : Fields} (h : f.Fits) :
    ofContent? (f.elements.flatMap Element.encode) =
      (AuthorizationList.readFrom {} f.softwareEnforced).bind fun softwareEnforced =>
        (AuthorizationList.readFrom {} f.teeEnforced).map fun teeEnforced =>
          ⟨f.version, f.securityLevel, f.challenge, softwareEnforced, teeEnforced⟩ := by
  have hall : ∀ e ∈ f.elements, e.Fits := fun e he => h.element he
  simp only [Fields.elements, List.forall_mem_cons] at hall
  obtain ⟨hversion, hlevel, hkeymasterVersion, hkeymasterLevel, hchallenge, hid, hsoftware, htee,
    -⟩ := hall
  simp only [ofContent?, Fields.elements, List.flatMap_cons, Option.bind_eq_bind, Option.bind_some,
    takes_readInteger h.version hversion _, takes_readEnumerated h.securityLevel hlevel _,
    Value.takes_integer hkeymasterVersion _,
    Value.takes_enumerated h.keymasterLevel hkeymasterLevel _, takes_readOctets hchallenge _,
    takes_readOctets hid _, AuthorizationList.read_append hsoftware, Option.pure_def]
  cases AuthorizationList.readFrom {} f.softwareEnforced with
  | none => rfl
  | some softwareEnforced =>
    simp only [Option.map_some, Option.bind_some, AuthorizationList.read_append htee]
    cases AuthorizationList.readFrom {} f.teeEnforced <;> rfl

/-- What is read from a description depends on its lists alone. -/
theorem parse_encode {f : Fields} (h : f.Fits) : parse f.encode =
    match AuthorizationList.readFrom {} f.softwareEnforced,
      AuthorizationList.readFrom {} f.teeEnforced with
    | some softwareEnforced, some teeEnforced =>
      .ok ⟨f.version, f.securityLevel, f.challenge, softwareEnforced, teeEnforced⟩
    | _, _ => .error (.certificateInvalid .keyDescription) := by
  have hread := (Element.takes_sequence h.sequence).read_eq
  simp only [parse, Fields.encode, hread, ofContent?_elements h, Option.bind_eq_bind,
    Option.bind_some]
  cases AuthorizationList.readFrom {} f.softwareEnforced with
  | none => rfl
  | some softwareEnforced => cases AuthorizationList.readFrom {} f.teeEnforced <;> rfl

/-- With bytes after it nothing is a description. -/
theorem parse_of_rest {b content rest : Bytes} (h : Element.readSequence b = some (content, rest))
    (hrest : rest ≠ []) : ∃ fault, parse b = .error (.certificateInvalid fault) := by
  cases rest with
  | nil => exact absurd rfl hrest
  | cons d rest =>
    simp only [parse, h, Option.bind_eq_bind, Option.bind_some]
    cases ofContent? content <;> exact ⟨_, rfl⟩

/-! ## Main statement -/

open AuthorizationList (Entry Spoiled told entryBytes readFrom_nil_entryBytes readFrom_eq_none)

/-- A description whose lists were written from entries is read with what these tell. -/
theorem Fields.Fits.parse_entries {f : Fields} (h : f.Fits) {software tee : List Entry}
    (hsoftware : ∀ entry ∈ software, entry.InRange) (htee : ∀ entry ∈ tee, entry.InRange)
    (hsoftwareBytes : f.softwareEnforced = entryBytes software)
    (hteeBytes : f.teeEnforced = entryBytes tee) :
    parse f.encode =
      .ok ⟨f.version, f.securityLevel, f.challenge, told software, told tee⟩ := by
  have hsoftwareFits : (Element.sequence f.softwareEnforced).Fits :=
    h.element (by simp [Fields.elements])
  have hteeFits : (Element.sequence f.teeEnforced).Fits := h.element (by simp [Fields.elements])
  rw [hsoftwareBytes] at hsoftwareFits
  rw [hteeBytes] at hteeFits
  rw [parse_encode h, hsoftwareBytes, hteeBytes,
    readFrom_nil_entryBytes hsoftware (Nat.le_of_lt hsoftwareFits.length),
    readFrom_nil_entryBytes htee (Nat.le_of_lt hteeFits.length)]

/-- A description is accepted or refused by its lists. -/
theorem Fields.Fits.parse_cases {f : Fields} (h : f.Fits) :
    (∃ d, parse f.encode = .ok d) ∧ ¬Spoiled f.softwareEnforced ∧ ¬Spoiled f.teeEnforced ∨
      parse f.encode = .error (.certificateInvalid .keyDescription) ∧
        (Spoiled f.softwareEnforced ∨ Spoiled f.teeEnforced) := by
  have hspoiled (content : Bytes) :
      Spoiled content ↔ AuthorizationList.readFrom {} content = none := readFrom_eq_none.symm
  rw [parse_encode h, hspoiled, hspoiled]
  cases AuthorizationList.readFrom {} f.softwareEnforced with
  | none => exact .inr ⟨rfl, .inl rfl⟩
  | some softwareEnforced =>
    cases AuthorizationList.readFrom {} f.teeEnforced with
    | none => exact .inr ⟨rfl, .inr rfl⟩
    | some teeEnforced => exact .inl ⟨⟨_, rfl⟩, nofun, nofun⟩

/-- A description is read back with its version, its level, its challenge and what the entries of
each of its lists tell. Whatever its lists hold, it is accepted exactly if neither of them is
spoiled by an entry that cannot be read, or that holds something else than its tag asks for, and
otherwise the certificate is refused. It is also refused if bytes follow the description. -/
theorem parse_recovers :
    (∀ (f : Fields) (software tee : List Entry), f.Fits →
      (∀ entry ∈ software, entry.InRange) → (∀ entry ∈ tee, entry.InRange) →
      f.softwareEnforced = entryBytes software → f.teeEnforced = entryBytes tee →
      parse f.encode =
        .ok ⟨f.version, f.securityLevel, f.challenge, told software, told tee⟩) ∧
    (∀ f : Fields, f.Fits →
      ((∃ d, parse f.encode = .ok d) ↔
        ¬Spoiled f.softwareEnforced ∧ ¬Spoiled f.teeEnforced) ∧
      (parse f.encode = .error (.certificateInvalid .keyDescription) ↔
        Spoiled f.softwareEnforced ∨ Spoiled f.teeEnforced)) ∧
    ∀ b content rest, Element.readSequence b = some (content, rest) → rest ≠ [] →
      ∃ fault, parse b = .error (.certificateInvalid fault) := by
  refine ⟨fun f software tee h hsoftware htee hsoftwareBytes hteeBytes => ?_, fun f h => ?_,
    fun b content rest => parse_of_rest⟩
  · exact h.parse_entries hsoftware htee hsoftwareBytes hteeBytes
  · rcases h.parse_cases with ⟨⟨d, hd⟩, hsoftware, htee⟩ | ⟨hparse, hspoiled⟩
    · refine ⟨iff_of_true ⟨d, hd⟩ ⟨hsoftware, htee⟩, iff_of_false ?_ ?_⟩
      · rw [hd]
        nofun
      · exact fun hspoiled => hspoiled.elim hsoftware htee
    · refine ⟨iff_of_false ?_ fun ⟨hsoftware, htee⟩ => hspoiled.elim hsoftware htee,
        iff_of_true hparse hspoiled⟩
      rw [hparse]
      nofun

/-- An entry without a meaning here, and a purpose. -/
def sampleSoftware : List Entry :=
  [.other 503 [1], .purposes [-129]]

/-- Purposes and origins that come more than once. -/
def sampleTee : List Entry :=
  [.origin 5, .purposes [2, 3], .allApplications [], .origin 0, .purposes [2]]

/-- A description with the given content of its last list. -/
def sampleFields (teeEnforced : Bytes) : Fields :=
  ⟨3, 0xffffffff, -1, 0, List.replicate 200 7, [], entryBytes sampleSoftware, teeEnforced⟩

/-- Purposes that are no set. -/
def misplaced : Element :=
  ⟨.contextSpecific, true, 1, [0x04, 0x00]⟩

/-- A description that is read back; one that is spoiled by its last list; and one with a byte after
it. -/
theorem parse_recovers_sample :
    parse (sampleFields (entryBytes sampleTee)).encode =
      .ok ⟨3, 0xffffffff, List.replicate 200 7, ⟨[-129], none, false⟩,
        ⟨[2, 3, 2], some 0, true⟩⟩ ∧
    parse (sampleFields misplaced.encode).encode =
      .error (.certificateInvalid .keyDescription) ∧
    ∃ fault, parse ((sampleFields []).encode ++ [0]) = .error (.certificateInvalid fault) := by
  obtain ⟨hentries, hlists, hrest⟩ := parse_recovers
  have hfits (teeEnforced : Bytes)
      (h : (sampleFields teeEnforced).encode.length ≤ lengthLimit) :
      (sampleFields teeEnforced).Fits :=
    ⟨show IsInt64 3 by decide, show 0xffffffff < 2 ^ 32 by decide, Nat.two_pow_pos 32, h⟩
  refine ⟨?_, ?_, ?_⟩
  · exact hentries _ sampleSoftware sampleTee (hfits _ (by decide +kernel)) (by decide) (by decide)
      rfl rfl
  · have hread : Element.read misplaced.encode = some (misplaced, []) := by decide +kernel
    have hcontent : Element.read misplaced.content =
        some (⟨.universal, false, Der.TagNumber.octetString, []⟩, []) := by decide +kernel
    refine (hlists _ (hfits _ (by decide +kernel))).2.2 (.inr ?_)
    refine .refused (AuthorizationList.read_of_not_universal hread (by decide)) (.purposes ?_)
    rintro ps ⟨e, rest, es, he, hnumber, -⟩
    cases hcontent.symm.trans he
    exact absurd hnumber (by decide)
  · exact hrest _ _ [0] (Element.takes_sequence (hfits [] (by decide +kernel)).sequence [0]) nofun

/-- Purposes in an element that has the number of sets, but not their class. -/
def otherClass : Element :=
  ⟨.contextSpecific, true, 1,
    Element.encode ⟨.contextSpecific, true, Der.TagNumber.set, (Element.integer 2).encode⟩⟩

/-- Three lists of one entry, on which the reader decides: purposes in an element of another class
are read, and so is an entry whose length is not in its shortest form; and a tag with the number
2 ^ 32 + 1 is taken for one with the number 1, under which an octet string is refused. -/
theorem parse_by_reader :
    parse (sampleFields otherClass.encode).encode =
      .ok ⟨3, 0xffffffff, List.replicate 200 7, ⟨[-129], none, false⟩, ⟨[2], none, false⟩⟩ ∧
    parse (sampleFields [0x02, 0x81, 0x01, 0x05]).encode =
      .ok ⟨3, 0xffffffff, List.replicate 200 7, ⟨[-129], none, false⟩, ⟨[], none, false⟩⟩ ∧
    parse (sampleFields [0xbf, 0x90, 0x80, 0x80, 0x80, 0x01, 0x02, 0x04, 0x00]).encode =
      .error (.certificateInvalid .keyDescription) := by
  decide +kernel

end KeyDescription

end Attestation
