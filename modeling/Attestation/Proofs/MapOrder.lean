import Mathlib.Data.List.Induction
import Attestation.CredentialKey
import Attestation.Proofs.Cbor.Keys
import Attestation.Proofs.Registration
import Attestation.Proofs.Statement.Fields
import Attestation.Proofs.Validator

/-!
# Maps in any order

Three decoders take maps: of statements, of credential keys and of attestation objects. The first
two depend on the first value under each of their labels (`Statement.ofEntries_congr`,
`CredentialKey.ofCbor_congr`), the third on the last value under each that has the right type
(`AttestationObject.Fields.ofEntries_eq`). So all three depend on the values under their labels
only, and `Attestation.decoded_by_key` says what follows: the order of a map without repeated keys
does not matter, entries with other keys do not matter, and of repeated keys the first entry counts,
or the last one.
-/

namespace Attestation

open Cbor (Value Entries Label)

variable {entries entries' : Entries}

/-- The bytes begin with the map of the entries. -/
def Cbor.Entries.ReadFrom (entries : Entries) (b : Bytes) : Prop :=
  ∃ rest, Value.read b = some (.map entries, rest)

/-! ## Statements -/

namespace Statement

/-- The labels that the decoder of a format looks up. -/
def labels (f : Format) : List Label :=
  (fields f).map fun field => .text field.name

section
variable {name : String} (h : entries.atText? name = entries'.atText? name)
include h

/-- A text depends only on what stands under its name. -/
theorem text_congr : text entries name = text entries' name := by
  rw [text, text, h]

/-- An integer depends only on what stands under its name. -/
theorem integer_congr : integer entries name = integer entries' name := by
  rw [integer, integer, h]

/-- Bytes that may be missing depend only on what stands under their name. -/
theorem bytes?_congr : bytes? entries name = bytes? entries' name := by
  rw [bytes?, bytes?, h]

/-- Bytes depend only on what stands under their name. -/
theorem bytes_congr : bytes entries name = bytes entries' name := by
  rw [bytes, bytes, bytes?_congr h]

end

section
variable (h : entries.atText? "x5c" = entries'.atText? "x5c")
include h

/-- Certificates that may be missing depend only on what stands under their name. -/
theorem certificates?_congr : certificates? entries = certificates? entries' := by
  rw [certificates?, certificates?, h]

/-- Certificates depend only on what stands under their name. -/
theorem certificates_congr : certificates entries = certificates entries' := by
  rw [certificates, certificates, certificates?_congr h]

end

/-- The statement of a format with fields depends on what is found under their names. -/
theorem ofEntries_congr {f : Format} (hf : f ≠ .none)
    (h : ∀ field ∈ fields f, entries.atText? field.name = entries'.atText? field.name) :
    ofEntries entries f = ofEntries entries' f := by
  cases f with
  | tpm =>
    simp only [fields, Field.must, Field.may, List.forall_mem_cons] at h
    obtain ⟨hversion, halg, hcertificates, hkeyIdentifier, hsignature, hcertInfo, hpubArea, -⟩ := h
    rw [ofEntries, ofEntries, text_congr hversion, integer_congr halg,
      certificates?_congr hcertificates, bytes?_congr hkeyIdentifier, bytes_congr hsignature,
      bytes?_congr hcertInfo, bytes?_congr hpubArea]
  | packed =>
    simp only [fields, Field.must, Field.may, List.forall_mem_cons] at h
    obtain ⟨halg, hsignature, hcertificates, hkeyIdentifier, -⟩ := h
    rw [ofEntries, ofEntries, integer_congr halg, bytes_congr hsignature,
      certificates?_congr hcertificates, bytes?_congr hkeyIdentifier]
  | androidKey =>
    simp only [fields, Field.must, List.forall_mem_cons] at h
    obtain ⟨halg, hsignature, hcertificates, -⟩ := h
    rw [ofEntries, ofEntries, integer_congr halg, bytes_congr hsignature,
      certificates_congr hcertificates]
  | androidSafetyNet =>
    simp only [fields, Field.must, List.forall_mem_cons] at h
    obtain ⟨hversion, hresponse, -⟩ := h
    rw [ofEntries, ofEntries, text_congr hversion, bytes_congr hresponse]
  | fidoU2f =>
    simp only [fields, Field.must, List.forall_mem_cons] at h
    obtain ⟨hsignature, hcertificates, -⟩ := h
    rw [ofEntries, ofEntries, bytes_congr hsignature, certificates_congr hcertificates]
  | apple =>
    simp only [fields, Field.must, List.forall_mem_cons] at h
    obtain ⟨hcertificates, -⟩ := h
    rw [ofEntries, ofEntries, certificates_congr hcertificates]
  | none => contradiction

/-- Statements are decoded alike where the first values under their labels are alike; where there
are no labels, the maps have to be both empty or neither. -/
theorem ofCbor_congr {name : String}
    (h : ∀ f, name = f.name → ∀ l ∈ labels f, (entries.under l).head? = (entries'.under l).head?)
    (hempty : name = Format.none.name → (entries = [] ↔ entries' = [])) :
    ofCbor name (.map entries) = ofCbor name (.map entries') := by
  unfold ofCbor
  cases hname : Format.ofName? name with
  | none => rfl
  | some f =>
    obtain rfl := Format.name_of_ofName? hname
    by_cases hf : f = .none
    · subst hf
      simp only [ofEntries, hempty rfl]
    · refine ofEntries_congr hf fun field hfield => ?_
      rw [Entries.atText?_eq, Entries.atText?_eq]
      exact h f rfl _ (List.mem_map_of_mem hfield)

end Statement

/-! ## Credential keys -/

namespace CredentialKey

/-- The labels that the decoder of keys looks up. -/
def labels : List Label :=
  [.integer keyTypeLabel, .integer algLabel, .integer firstLabel, .integer secondLabel,
    .integer thirdLabel]

/-- Keys are decoded alike where the first values under their labels are alike. -/
theorem ofCbor_congr (h : ∀ l ∈ labels, (entries.under l).head? = (entries'.under l).head?) :
    ofCbor (.map entries) = ofCbor (.map entries') := by
  simp only [labels, List.forall_mem_cons, ← Entries.atInt?_eq] at h
  obtain ⟨hkeyType, halg, hfirst, hsecond, hthird, -⟩ := h
  have hreadKeyType : readKeyType entries = readKeyType entries' := by
    rw [readKeyType, readKeyType, hkeyType]
  have hreadAlg : readAlg entries = readAlg entries' := by
    rw [readAlg, readAlg, halg]
  have hreadFields (keyType : Int) (alg : Option Int) :
      readFields entries keyType alg = readFields entries' keyType alg := by
    simp only [readFields, readCurve, checkOctetKeyCurve, readBytes, hfirst, hsecond, hthird]
  simp only [ofCbor, hreadKeyType, hreadAlg, hreadFields]

end CredentialKey

/-! ## Attestation objects -/

namespace AttestationObject

/-- The labels of an object. -/
def labels : List Label :=
  [.text "fmt", .text "authData", .text "attStmt"]

/-- The fields of a map: the last text, the last byte string and the last item under the three
labels. -/
theorem Fields.ofEntries_eq (entries : Entries) :
    Fields.ofEntries entries = ⟨entries.last? "fmt" Value.toText?,
      entries.last? "authData" Value.toBytes?, entries.last? "attStmt" some⟩ := by
  -- from the end, since a later entry replaces the earlier ones
  induction entries using List.reverseRecOn with
  | nil => rfl
  | append_singleton entries e ih =>
    rw [Fields.ofEntries, List.foldl_append, ← Fields.ofEntries, ih, List.foldl_cons,
      List.foldl_nil]
    unfold Fields.add
    split
    · rename_i name
      have hname : Value.toText? (.text name) = some name := rfl
      rw [Entries.last?_concat_of_some hname, Entries.last?_concat_of_none (by simp),
        Entries.last?_concat_of_none (by simp)]
    · rename_i b
      have hb : Value.toBytes? (.bytes b) = some b := rfl
      rw [Entries.last?_concat_of_some hb, Entries.last?_concat_of_none (by simp),
        Entries.last?_concat_of_none (by simp)]
    · rename_i v
      have hv : some v = some v := rfl
      rw [Entries.last?_concat_of_some hv, Entries.last?_concat_of_none (by simp),
        Entries.last?_concat_of_none (by simp)]
    · rename_i hformat hauthData hstatement
      obtain ⟨key, v⟩ := e
      rw [Entries.last?_concat_of_none, Entries.last?_concat_of_none,
        Entries.last?_concat_of_none]
      · rintro rfl
        exact absurd rfl (hstatement v)
      · rintro rfl
        cases v with
        | bytes b => exact absurd rfl (hauthData b)
        | _ => rfl
      · rintro rfl
        cases v with
        | text name => exact absurd rfl (hformat name)
        | _ => rfl

/-- The fields of a map are those of every map with the same values under the three labels. -/
theorem Fields.ofEntries_congr (h : ∀ l ∈ labels, entries.under l = entries'.under l) :
    Fields.ofEntries entries = Fields.ofEntries entries' := by
  simp only [labels, List.forall_mem_cons] at h
  obtain ⟨hformat, hauthData, hstatement, -⟩ := h
  simp only [Fields.ofEntries_eq, Entries.last?, hformat, hauthData, hstatement]

/-- Objects are decoded alike where the values under their labels are alike. -/
theorem decode_congr {b b' : Bytes} (hb : entries.ReadFrom b) (hb' : entries'.ReadFrom b')
    (h : ∀ l ∈ labels, entries.under l = entries'.under l) : decode b = decode b' := by
  obtain ⟨rest, hread⟩ := hb
  obtain ⟨rest', hread'⟩ := hb'
  rw [decode_eq hread, decode_eq hread', Fields.ofEntries_congr h]

end AttestationObject

/-! ## All three -/

/-- A map without repeated labels is decoded alike in every order. Entries whose keys the decoder
does not look up do not matter, wherever they are put, except that the statement without fields
needs an empty map. Where keys are repeated, the first entry of each is the one that counts in
statements and keys; in objects it is the last text, byte string or item of the field. -/
theorem decoded_by_key :
    (∀ entries entries' : Entries, entries.Distinct → entries.Perm entries' →
      (∀ b b', entries.ReadFrom b → entries'.ReadFrom b' →
        AttestationObject.decode b = AttestationObject.decode b') ∧
      (∀ name, Statement.ofCbor name (.map entries) = Statement.ofCbor name (.map entries')) ∧
      CredentialKey.ofCbor (.map entries) = CredentialKey.ofCbor (.map entries')) ∧
    (∀ entries entries' : Entries,
      (Entries.Insertion AttestationObject.labels entries entries' →
        ∀ b b', entries.ReadFrom b → entries'.ReadFrom b' →
          AttestationObject.decode b = AttestationObject.decode b') ∧
      (∀ f, f ≠ Format.none → Entries.Insertion (Statement.labels f) entries entries' →
        Statement.ofCbor f.name (.map entries) = Statement.ofCbor f.name (.map entries')) ∧
      (Entries.Insertion CredentialKey.labels entries entries' →
        CredentialKey.ofCbor (.map entries) = CredentialKey.ofCbor (.map entries')) ∧
      Statement.ofCbor Format.none.name (.map entries) =
        if entries = [] then .ok .none else .error (.structuralMismatch .noneNotEmpty)) ∧
    ∀ entries : Entries,
      (∀ name, Statement.ofCbor name (.map entries) = Statement.ofCbor name (.map entries.firsts)) ∧
      CredentialKey.ofCbor (.map entries) = CredentialKey.ofCbor (.map entries.firsts) ∧
      ∀ b, entries.ReadFrom b → AttestationObject.decode b =
        AttestationObject.ofFields ⟨entries.last? "fmt" Value.toText?,
          entries.last? "authData" Value.toBytes?, entries.last? "attStmt" some⟩ := by
  refine ⟨fun entries entries' hdistinct hperm => ?_, fun entries entries' => ?_,
    fun entries => ?_⟩
  · have hunder := hdistinct.under_eq hperm
    refine ⟨fun b b' hb hb' => ?_, fun name => ?_, ?_⟩
    · exact AttestationObject.decode_congr hb hb' fun l _ => hunder l
    · refine Statement.ofCbor_congr (fun f _ l _ => by rw [hunder l]) fun _ => ?_
      exact ⟨fun h => (h ▸ hperm).nil_eq.symm, fun h => (h ▸ hperm).eq_nil⟩
    · exact CredentialKey.ofCbor_congr fun l _ => by rw [hunder l]
  · refine ⟨fun h b b' hb hb' => ?_, fun f hf h => ?_, fun h => ?_, ?_⟩
    · exact AttestationObject.decode_congr hb hb' fun l hl => h.under_eq hl
    · refine Statement.ofCbor_congr (fun g hg l hl => ?_) fun hnone => ?_
      · cases Format.name_inj.1 hg
        rw [h.under_eq hl]
      -- Only the format without a statement looks at more than its labels.
      · exact absurd (Format.name_inj.1 hnone) hf
    · exact CredentialKey.ofCbor_congr fun l hl => by rw [h.under_eq hl]
    · rfl
  -- Every decoder but the one of objects looks at the first value under a label.
  · have hhead (l : Label) : (entries.under l).head? = (entries.firsts.under l).head? := by
      rw [Entries.under_firsts]
      cases entries.under l <;> rfl
    refine ⟨fun name => ?_, ?_, fun b hb => ?_⟩
    · exact Statement.ofCbor_congr (fun f _ l _ => hhead l) fun _ => Entries.firsts_eq_nil.symm
    · exact CredentialKey.ofCbor_congr fun l _ => hhead l
    · obtain ⟨rest, hread⟩ := hb
      rw [AttestationObject.decode_eq hread, AttestationObject.Fields.ofEntries_eq]

/-- A map with fields of a statement, of a key and of an object. -/
def mixedEntries : Entries :=
  [(.text "fmt", .text "apple"), (.unsigned 1, .unsigned 3), (.text "ver", .text "1"),
    (.negative 1, .bytes [3]), (.text "response", .bytes [7]), (.negative 0, .bytes [5])]

/-- The same with entries in front, whose keys no decoder looks up. -/
def mixedEntriesAfterOthers : Entries :=
  (.bytes [1], .null) :: (.text "1", .null) :: mixedEntries

/-- The same with a second key type and a second name, each after the first one. -/
def mixedEntriesTwice : Entries :=
  mixedEntries ++ [(.unsigned 1, .unsigned 2), (.text "fmt", .text "tpm")]

/-- The map backwards, with other entries, and with repeated keys. The first key type counts, and
the last name, after which other fields of an object are missing. -/
theorem decoded_by_key_sample :
    CredentialKey.ofCbor (.map mixedEntries.reverse) = .ok (.rsa none [5] [3]) ∧
    Statement.ofCbor "android-safetynet" (.map mixedEntries.reverse) =
      .ok (.androidSafetyNet ⟨"1", [7]⟩) ∧
    AttestationObject.decode (Value.map mixedEntries.reverse).encode =
      .error (.malformedInput (.objectLacks "authData")) ∧
    CredentialKey.ofCbor (.map mixedEntriesAfterOthers) = .ok (.rsa none [5] [3]) ∧
    CredentialKey.ofCbor (.map mixedEntriesTwice) = .ok (.rsa none [5] [3]) ∧
    AttestationObject.decode (Value.map mixedEntriesTwice).encode =
      AttestationObject.ofFields ⟨some "tpm", none, none⟩ := by
  obtain ⟨hperm, hinsertion, hrepeated⟩ := decoded_by_key
  have hdistinct : mixedEntries.Distinct := Entries.distinct_of_not_same (by decide)
  have hinsert : Entries.Insertion CredentialKey.labels mixedEntries mixedEntriesAfterOthers := by
    refine .insert (by decide) (.insert (by decide) ?_)
    exact .keep _ (.keep _ (.keep _ (.keep _ (.keep _ (.keep _ .nil)))))
  obtain ⟨hobject, hstatement, hkey⟩ :=
    hperm _ _ hdistinct (List.reverse_perm mixedEntries).symm
  obtain ⟨-, -, hkeyInsertion, -⟩ := hinsertion mixedEntries mixedEntriesAfterOthers
  obtain ⟨-, hkeyTwice, hobjectTwice⟩ := hrepeated mixedEntriesTwice
  refine ⟨hkey.symm.trans rfl, (hstatement _).symm.trans rfl,
    (hobject (Value.map mixedEntries).encode _ ⟨[], rfl⟩ ⟨[], rfl⟩).symm.trans rfl,
    (hkeyInsertion hinsert).symm.trans rfl, hkeyTwice.trans rfl,
    (hobjectTwice _ ⟨[], rfl⟩).trans rfl⟩

end Attestation
