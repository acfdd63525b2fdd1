import Attestation.Proofs.Statement.Fields

/-!
# Statements as maps

Entries describe a statement if its fields are what they hold under the names of the fields, and it
is then the statement that is decoded from them (`Statement.ofEntries_eq_ok`). A statement is
written as a map of its fields, in which fields that it does not have are left out, and is decoded
from this map under the name of its format (`Statement.ofCbor_toCbor`). Not every statement is one
that a map can hold: an algorithm is an integer of 64 bits, and a certificate list has a certificate
(`Statement.WellFormed`).
-/

namespace Attestation

open Cbor (Value Entries Signed64)

/-- An integer of 64 bits is an item. -/
theorem Cbor.Value.toInt?_ofInt {n : Int} (h : Signed64 n) : (Value.ofInt n).toInt? = some n := by
  obtain ⟨hlow, hhigh⟩ := h
  cases n with
  | ofNat m =>
    have hm : (m : Int) < 2 ^ 63 := hhigh
    have htoNat : (UInt64.ofNat m).toNat = m := UInt64.toNat_ofNat_of_lt' (show m < 2 ^ 64 by omega)
    simp [Value.ofInt, Value.toInt?, htoNat]
  | negSucc m =>
    have htoNat : (UInt64.ofNat m).toNat = m := UInt64.toNat_ofNat_of_lt' (show m < 2 ^ 64 by omega)
    simp [Value.ofInt, Value.toInt?, htoNat]
    omega

namespace Statement

/-! ## What entries describe -/

/-- The fields of the statement are what the first entries of their names hold, and are absent where
there is no such entry; the statement without fields needs the empty map. -/
def DescribedBy (entries : Entries) : Statement → Prop
  | tpm s => entries.atText? "ver" = some (.text s.version) ∧ IntegerAt entries "alg" s.alg ∧
    CertificatesAt entries s.certificates ∧
    entries.atText? "ecdaaKeyId" = s.keyIdentifier.map .bytes ∧
    entries.atText? "sig" = some (.bytes s.signature) ∧
    entries.atText? "certInfo" = s.certInfo.map .bytes ∧
    entries.atText? "pubArea" = s.pubArea.map .bytes
  | packed s => IntegerAt entries "alg" s.alg ∧
    entries.atText? "sig" = some (.bytes s.signature) ∧ CertificatesAt entries s.certificates ∧
    entries.atText? "ecdaaKeyId" = s.keyIdentifier.map .bytes
  | androidKey s => IntegerAt entries "alg" s.alg ∧
    entries.atText? "sig" = some (.bytes s.signature) ∧
    CertificatesAt entries (some s.certificates)
  | androidSafetyNet s => entries.atText? "ver" = some (.text s.version) ∧
    entries.atText? "response" = some (.bytes s.response)
  | fidoU2f s => entries.atText? "sig" = some (.bytes s.signature) ∧
    CertificatesAt entries (some s.certificates)
  | apple s => CertificatesAt entries (some s.certificates)
  | none => entries = []

section
variable {entries : Entries} {s : Statement}

/-- The statement that is decoded from entries is described by them. -/
theorem describedBy_of_ofEntries {f : Format} (h : ofEntries entries f = .ok s) :
    s.format = f ∧ s.DescribedBy entries := by
  cases f with
  | tpm =>
    simp only [ofEntries, bind_eq_ok, pure_eq_ok, text_eq_ok, integer_eq_ok, certificates?_eq_ok,
      bytes?_eq_ok, bytes_eq_ok] at h
    obtain ⟨_, hversion, _, halg, _, hcertificates, _, hkeyIdentifier, _, hsignature, _, hcertInfo,
      _, hpubArea, rfl⟩ := h
    exact ⟨rfl, hversion, halg, hcertificates, hkeyIdentifier, hsignature, hcertInfo, hpubArea⟩
  | packed =>
    simp only [ofEntries, bind_eq_ok, pure_eq_ok, integer_eq_ok, bytes_eq_ok, certificates?_eq_ok,
      bytes?_eq_ok] at h
    obtain ⟨_, halg, _, hsignature, _, hcertificates, _, hkeyIdentifier, rfl⟩ := h
    exact ⟨rfl, halg, hsignature, hcertificates, hkeyIdentifier⟩
  | androidKey =>
    simp only [ofEntries, bind_eq_ok, pure_eq_ok, integer_eq_ok, bytes_eq_ok,
      certificates_eq_ok] at h
    obtain ⟨_, halg, _, hsignature, _, hcertificates, rfl⟩ := h
    exact ⟨rfl, halg, hsignature, hcertificates⟩
  | androidSafetyNet =>
    simp only [ofEntries, bind_eq_ok, pure_eq_ok, text_eq_ok, bytes_eq_ok] at h
    obtain ⟨_, hversion, _, hresponse, rfl⟩ := h
    exact ⟨rfl, hversion, hresponse⟩
  | fidoU2f =>
    simp only [ofEntries, bind_eq_ok, pure_eq_ok, bytes_eq_ok, certificates_eq_ok] at h
    obtain ⟨_, hsignature, _, hcertificates, rfl⟩ := h
    exact ⟨rfl, hsignature, hcertificates⟩
  | apple =>
    simp only [ofEntries, bind_eq_ok, pure_eq_ok, certificates_eq_ok] at h
    obtain ⟨_, hcertificates, rfl⟩ := h
    exact ⟨rfl, hcertificates⟩
  | none =>
    -- Nothing is read from the map, which has to be empty.
    rw [ofEntries] at h
    split at h
    · rename_i hempty
      cases h
      exact ⟨rfl, hempty⟩
    · cases h

/-- A statement is decoded from entries that describe it, under its own format. -/
theorem ofEntries_of_describedBy (h : s.DescribedBy entries) :
    ofEntries entries s.format = .ok s := by
  cases s with
  | tpm s =>
    obtain ⟨hversion, halg, hcertificates, hkeyIdentifier, hsignature, hcertInfo, hpubArea⟩ := h
    simp only [format, ofEntries, bind_eq_ok, pure_eq_ok, text_eq_ok, integer_eq_ok,
      certificates?_eq_ok, bytes?_eq_ok, bytes_eq_ok]
    exact ⟨_, hversion, _, halg, _, hcertificates, _, hkeyIdentifier, _, hsignature, _, hcertInfo,
      _, hpubArea, rfl⟩
  | packed s =>
    obtain ⟨halg, hsignature, hcertificates, hkeyIdentifier⟩ := h
    simp only [format, ofEntries, bind_eq_ok, pure_eq_ok, integer_eq_ok, bytes_eq_ok,
      certificates?_eq_ok, bytes?_eq_ok]
    exact ⟨_, halg, _, hsignature, _, hcertificates, _, hkeyIdentifier, rfl⟩
  | androidKey s =>
    obtain ⟨halg, hsignature, hcertificates⟩ := h
    simp only [format, ofEntries, bind_eq_ok, pure_eq_ok, integer_eq_ok, bytes_eq_ok,
      certificates_eq_ok]
    exact ⟨_, halg, _, hsignature, _, hcertificates, rfl⟩
  | androidSafetyNet s =>
    obtain ⟨hversion, hresponse⟩ := h
    simp only [format, ofEntries, bind_eq_ok, pure_eq_ok, text_eq_ok, bytes_eq_ok]
    exact ⟨_, hversion, _, hresponse, rfl⟩
  | fidoU2f s =>
    obtain ⟨hsignature, hcertificates⟩ := h
    simp only [format, ofEntries, bind_eq_ok, pure_eq_ok, bytes_eq_ok, certificates_eq_ok]
    exact ⟨_, hsignature, _, hcertificates, rfl⟩
  | apple s =>
    simp only [format, ofEntries, bind_eq_ok, pure_eq_ok, certificates_eq_ok]
    exact ⟨_, h, rfl⟩
  | none => exact if_pos h

/-- What is decoded from entries under a format is the statement of the format that they
describe. -/
theorem ofEntries_eq_ok {f : Format} :
    ofEntries entries f = .ok s ↔ s.format = f ∧ s.DescribedBy entries := by
  refine ⟨describedBy_of_ofEntries, fun h => ?_⟩
  obtain ⟨rfl, hs⟩ := h
  exact ofEntries_of_describedBy hs

end

/-- The algorithm is an integer of 64 bits, and a certificate list has a certificate. -/
def WellFormed : Statement → Prop
  | tpm s => Signed64 s.alg ∧ s.certificates ≠ some []
  | packed s => Signed64 s.alg ∧ s.certificates ≠ some []
  | androidKey s => Signed64 s.alg ∧ s.certificates ≠ []
  | androidSafetyNet _ => True
  | fidoU2f s => s.certificates ≠ []
  | apple s => s.certificates ≠ []
  | none => True

/-! ## Looking up fields -/

variable {entries rest : Entries} {name : String}

@[simp] theorem atText?_nil (key : String) : Entries.atText? [] key = Option.none :=
  rfl

/-- An entry is found under its name and under no other. -/
@[simp] theorem atText?_entry (name key : String) (v : Value) (rest : Entries) :
    Entries.atText? (entry name v :: rest) key =
      if name = key then some v else Entries.atText? rest key := by
  by_cases h : name = key <;> simp [Entries.atText?, entry, h]

/-- A field that may be absent is found where it is there. -/
@[simp] theorem atText?_optionalEntry {α : Type} (name key : String) (item : α → Value)
    (x : Option α) (rest : Entries) :
    Entries.atText? (optionalEntry name item x ++ rest) key =
      if name = key then (x.map item).or (Entries.atText? rest key)
      else Entries.atText? rest key := by
  cases x with
  | none => simp [optionalEntry]
  | some x => simp [optionalEntry]

/-- A field that may be absent, as the last one. -/
@[simp] theorem atText?_sole_optionalEntry {α : Type} (name key : String) (item : α → Value)
    (x : Option α) :
    Entries.atText? (optionalEntry name item x) key =
      if name = key then x.map item else Option.none := by
  simpa using atText?_optionalEntry name key item x []

/-! ## Statements -/

/-- An integer that was written is the one that is found. -/
theorem integerAt_of_ofInt {n : Int} (hn : Signed64 n)
    (h : entries.atText? name = some (.ofInt n)) : IntegerAt entries name n :=
  ⟨_, h, Cbor.Value.toInt?_ofInt hn, hn⟩

/-- A statement is described by its entries. -/
theorem describedBy_toEntries {s : Statement} (h : s.WellFormed) : s.DescribedBy s.toEntries := by
  cases s with
  | tpm s =>
    obtain ⟨halg, hcertificates⟩ := h
    refine ⟨?_, integerAt_of_ofInt halg ?_, ⟨hcertificates, ?_⟩, ?_, ?_, ?_, ?_⟩ <;>
      simp [toEntries]
  | packed s =>
    obtain ⟨halg, hcertificates⟩ := h
    refine ⟨integerAt_of_ofInt halg ?_, ?_, ⟨hcertificates, ?_⟩, ?_⟩ <;> simp [toEntries]
  | androidKey s =>
    obtain ⟨halg, hcertificates⟩ := h
    refine ⟨integerAt_of_ofInt halg ?_, ?_, ⟨by simpa using hcertificates, ?_⟩⟩ <;> simp [toEntries]
  | androidSafetyNet s => refine ⟨?_, ?_⟩ <;> simp [toEntries]
  | fidoU2f s => refine ⟨?_, ⟨by simpa [WellFormed] using h, ?_⟩⟩ <;> simp [toEntries]
  | apple s =>
    refine ⟨by simpa [WellFormed] using h, ?_⟩
    simp [toEntries]
  | none => rfl

/-- The entries of a statement are decoded under its format as the statement. -/
theorem ofEntries_toEntries {s : Statement} (h : s.WellFormed) :
    ofEntries s.toEntries s.format = .ok s :=
  ofEntries_of_describedBy (describedBy_toEntries h)

/-- A statement is decoded from its map under the name of its format. -/
theorem ofCbor_toCbor {s : Statement} (h : s.WellFormed) :
    ofCbor s.format.name s.toCbor = .ok s := by
  rw [ofCbor, Format.ofName?_name]
  exact ofEntries_toEntries h

end Statement

end Attestation
