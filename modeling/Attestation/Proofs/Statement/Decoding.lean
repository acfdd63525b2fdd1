import Attestation.Proofs.Statement.Encoding

/-!
# Decoding of statements

The decoder of a format makes the checks of its fields one after the other
(`Statement.performs_ofEntries`), so it succeeds if they all are in order, with the statement that
the map describes, and otherwise reports the first one at fault. `Statement.ofCbor_exact` says this
of every format and every item, together with what comes before: the name has to be one of a format
and the item has to be a map.
-/

namespace Attestation.Statement

open Cbor (Value Entries)

variable {entries : Entries} {s : Statement} {f : Format}

/-! ## The order of the fields -/

/-- What the decoder of a format requires of a map: its fields are in order, and where it has none,
the map is empty. -/
def checks (entries : Entries) : Format → List Check
  | .none => [.require (entries = []) (.structuralMismatch .noneNotEmpty)]
  | f => (fields f).map (Field.check entries)

/-- The checks of a format pass if its fields are in order, and the map is empty where no field is
expected. -/
theorem passes_checks_iff : (∀ check ∈ checks entries f, check.Passes) ↔
    (∀ field ∈ fields f, field.InOrder entries) ∧ (f = .none → entries = []) := by
  by_cases hf : f = .none
  · subst hf
    simp [checks, fields, Check.require]
  · have hchecks : checks entries f = (fields f).map (Field.check entries) := by
      cases f with
      | none => contradiction
      | _ => rfl
    rw [hchecks, List.forall_mem_map]
    exact ⟨fun h => ⟨h, fun hnone => absurd hnone hf⟩, And.left⟩

/-- The decoder of a format makes its checks in their order. -/
theorem performs_ofEntries (entries : Entries) (f : Format) :
    Performs (checks entries f) (ofEntries entries f) := by
  cases f with
  | tpm =>
    refine reads_text.bind fun version => ?_
    refine reads_integer.bind fun alg => ?_
    refine reads_certificates?.bind fun certificates => ?_
    refine reads_bytes?.bind fun keyIdentifier => ?_
    refine reads_bytes.bind fun signature => ?_
    refine reads_bytes?.bind fun certInfo => ?_
    refine reads_bytes?.bind fun pubArea => ?_
    exact .pure _
  | packed =>
    refine reads_integer.bind fun alg => ?_
    refine reads_bytes.bind fun signature => ?_
    refine reads_certificates?.bind fun certificates => ?_
    refine reads_bytes?.bind fun keyIdentifier => ?_
    exact .pure _
  | androidKey =>
    refine reads_integer.bind fun alg => ?_
    refine reads_bytes.bind fun signature => ?_
    refine reads_certificates.bind fun certificates => ?_
    exact .pure _
  | androidSafetyNet =>
    refine reads_text.bind fun version => ?_
    refine reads_bytes.bind fun response => ?_
    exact .pure _
  | fidoU2f =>
    refine reads_bytes.bind fun signature => ?_
    refine reads_certificates.bind fun certificates => ?_
    exact .pure _
  | apple =>
    refine reads_certificates.bind fun certificates => ?_
    exact .pure _
  | none =>
    -- There is no field to read: the one check is whether the map is empty.
    rw [ofEntries]
    split
    · rename_i hempty
      exact .of_passes hempty
    · rename_i hempty
      exact .of_fails ⟨hempty, rfl⟩

/-- What a map describes is a statement that a map can hold. -/
theorem DescribedBy.wellFormed (h : s.DescribedBy entries) : s.WellFormed := by
  cases s with
  | tpm s =>
    obtain ⟨-, ⟨_, -, -, halg⟩, ⟨hcertificates, -⟩, -⟩ := h
    exact ⟨halg, hcertificates⟩
  | packed s =>
    obtain ⟨⟨_, -, -, halg⟩, -, ⟨hcertificates, -⟩, -⟩ := h
    exact ⟨halg, hcertificates⟩
  | androidKey s =>
    obtain ⟨⟨_, -, -, halg⟩, -, hcertificates, -⟩ := h
    exact ⟨halg, fun hnil => hcertificates (congrArg some hnil)⟩
  | androidSafetyNet s => trivial
  | fidoU2f s => exact fun hnil => h.2.1 (congrArg some hnil)
  | apple s => exact fun hnil => h.1 (congrArg some hnil)
  | none => trivial

/-! ## Items -/

/-- A map is decoded by the format that has the name. -/
theorem ofCbor_map (f : Format) (entries : Entries) :
    ofCbor f.name (.map entries) = ofEntries entries f := by
  rw [ofCbor, Format.ofName?_name]

/-- A format has to be known before anything else, and the item has to be a map. The decoder then
succeeds exactly if each field of the format is in order and, where the format has no fields, the
map is empty. Its result has this format and the fields that the map describes, and is decoded from
its own map again. Otherwise the error is that of the first field of the format that is not in
order. -/
theorem ofCbor_exact :
    (∀ name v, (∀ f : Format, name ≠ f.name) →
      ofCbor name v = .error (.unsupportedFormat (.unknown name))) ∧
    (∀ (f : Format) v, (∀ entries, v ≠ .map entries) →
      ofCbor f.name v = .error (.malformedInput .statementShape)) ∧
    ∀ (f : Format) entries,
      ((∃ s, ofCbor f.name (.map entries) = .ok s) ↔
        (∀ field ∈ fields f, field.InOrder entries) ∧ (f = .none → entries = [])) ∧
      (∀ s, ofCbor f.name (.map entries) = .ok s ↔ s.format = f ∧ s.DescribedBy entries) ∧
      (∀ s, ofCbor f.name (.map entries) = .ok s → ofCbor f.name s.toCbor = .ok s) ∧
      ∀ e, ofCbor f.name (.map entries) = .error e ↔
        FirstFailure (checks entries f) e := by
  refine ⟨fun name v hname => ?_, fun f v hv => ?_, fun f entries => ?_⟩
  · have hunknown : Format.ofName? name = Option.none := by
      cases hf : Format.ofName? name with
      | none => rfl
      | some f => exact absurd (Format.name_of_ofName? hf).symm (hname f)
    rw [ofCbor, hunknown]
  · rw [ofCbor, Format.ofName?_name]
    cases v with
    | map entries => exact absurd rfl (hv entries)
    | _ => rfl
  · rw [ofCbor_map]
    have hperforms := performs_ofEntries entries f
    refine ⟨hperforms.exists_ok_iff.trans passes_checks_iff, fun s => ofEntries_eq_ok,
      fun s hs => ?_, fun e => hperforms.eq_error_iff⟩
    obtain ⟨rfl, hdescribed⟩ := ofEntries_eq_ok.1 hs
    exact ofCbor_toCbor hdescribed.wellFormed

/-- Entries out of order, with a second algorithm and a key that no format has. -/
def sampleEntries : Entries :=
  [entry "sig" (.bytes [1, 2]), entry "alg" (.negative 6), entry "alg" .null,
    entry "x5c" (.array [.bytes [3], .bytes [4]]), (.unsigned 1, .null)]

/-- The statement of the sample. -/
def sampleStatement : Statement :=
  packed ⟨-7, [1, 2], some [[3], [4]], Option.none⟩

/-- An unknown name, an item that is no map, and the sample under two formats: it is a statement of
the one, and lacks a field of the other before it has one of the wrong kind. -/
theorem ofCbor_exact_sample :
    ofCbor "tmp" (.array []) = .error (.unsupportedFormat (.unknown "tmp")) ∧
    ofCbor "tpm" (.array []) = .error (.malformedInput .statementShape) ∧
    ofCbor "packed" (.map sampleEntries) = .ok sampleStatement ∧
    ofCbor "packed" sampleStatement.toCbor = .ok sampleStatement ∧
    ofCbor "tpm" (.map sampleEntries) = .error (.missingStatement (.field "ver")) ∧
    ofCbor "none" (.map sampleEntries) = .error (.structuralMismatch .noneNotEmpty) := by
  obtain ⟨hunknown, hshape, hmap⟩ := ofCbor_exact
  obtain ⟨-, hok, hagain, -⟩ := hmap .packed sampleEntries
  obtain ⟨-, -, -, htpm⟩ := hmap .tpm sampleEntries
  obtain ⟨-, -, -, hnone⟩ := hmap .none sampleEntries
  have hsample : ofCbor "packed" (.map sampleEntries) = .ok sampleStatement := by
    refine (hok _).2 ⟨rfl, ⟨_, rfl, rfl, by decide⟩, rfl, ⟨nofun, rfl⟩, rfl⟩
  refine ⟨hunknown _ _ fun f => ?_, hshape .tpm _ fun _ => nofun, hsample, hagain _ hsample,
    (htpm _).2 (.here (.absent rfl rfl)), (hnone _).2 (.here ⟨nofun, rfl⟩)⟩
  cases f <;> decide

end Attestation.Statement
