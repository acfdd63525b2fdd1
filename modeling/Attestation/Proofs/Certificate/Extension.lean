import Attestation.Certificate.Extension
import Attestation.Proofs.Result

/-!
# What certificates say

The requirements on certificates that verifications share, as predicates of the certificate and its
list of extensions: it is no authority, it names no other model. Each check of a certificate
succeeds exactly if the predicate holds (`requireVersion3_eq_ok`, `requireNotAuthority_eq_ok`,
`aaguid_eq_ok`).
-/

namespace Attestation

/-- The list begins with one whole certificate. -/
def BeginsWith (certificates : List Bytes) (c : Certificate) : Prop :=
  ∃ der rest, certificates = der :: rest ∧ Certificate.read der = some (c, [])

namespace Certificate

/-- The extensions of the given type. -/
def extensionsOf (c : Certificate) (id : Bytes) : List CertificateExtension :=
  c.extensions.filter fun e => e.id == id

/-- The certificate does not say that its key may certify others: it has no basic constraints, or
the only ones say something else or cannot be decoded. -/
def NotAuthority (c : Certificate) : Prop :=
  c.extensionsOf basicConstraintsId = [] ∨
    ∃ e, c.extensionsOf basicConstraintsId = [e] ∧ authority? e.content ≠ some true

/-- The first extension that names a model, if there is one, is an octet string of sixteen bytes,
and these are the given ones. -/
def NamesNoOtherModel (c : Certificate) (aaguid : Bytes) : Prop :=
  ∀ e, c.extension? aaguidId = some e →
    Der.Value.read e.content = some (.octets aaguid, []) ∧ aaguid.length = 16

/-! ## Decoding -/

/-- A certificate is parsed if it can be read and nothing is left. -/
theorem parse_eq_ok {der : Bytes} {c : Certificate} :
    parse der = .ok c ↔ read der = some (c, []) := by
  unfold parse
  split <;> simp_all

/-- The certificate of the signer is the first of the list. -/
theorem leafCertificate_eq_ok {certificates : List Bytes} {c : Certificate} :
    leafCertificate certificates = .ok c ↔ BeginsWith certificates c := by
  refine ⟨fun h => ?_, fun h => ?_⟩
  · cases certificates with
    | nil => cases h
    | cons der rest => exact ⟨der, rest, rfl, parse_eq_ok.1 h⟩
  · rcases h with ⟨der, rest, rfl, h⟩
    exact parse_eq_ok.2 h

end Certificate

/-- A list begins with one certificate at most. -/
theorem BeginsWith.unique {certificates : List Bytes} {c c' : Certificate}
    (h : BeginsWith certificates c) (h' : BeginsWith certificates c') : c = c' := by
  rw [← Certificate.leafCertificate_eq_ok] at h h'
  exact Except.ok.inj (h.symm.trans h')

namespace Certificate

/-! ## Extensions -/

section
variable {c : Certificate} {id : Bytes} {fault : CertificateFault}

/-- An extension is not there exactly if none has its identifier. -/
theorem soleExtension_eq_none :
    c.soleExtension id fault = .ok none ↔ c.extensionsOf id = [] := by
  unfold soleExtension extensionsOf
  cases c.extensions.filter fun e => e.id == id with
  | nil => simp
  | cons first others => cases others <;> simp

/-- An extension is the sole one exactly if no other has its identifier. -/
theorem soleExtension_eq_some {e : CertificateExtension} :
    c.soleExtension id fault = .ok (some e) ↔ c.extensionsOf id = [e] := by
  unfold soleExtension extensionsOf
  cases c.extensions.filter fun e => e.id == id with
  | nil => simp
  | cons first others => cases others <;> simp

/-- What is decoded from the only extension of a type. -/
theorem decodeSole_eq_some {α : Type} {decode : Bytes → Option α} {x : α} :
    (do
      match ← c.soleExtension id fault with
      | some e => some <$> orFault fault (decode e.content)
      | none => return none : Result (Option α)) = .ok (some x) ↔
      ∃ e, c.extensionsOf id = [e] ∧ decode e.content = some x := by
  rw [bind_eq_ok]
  refine ⟨fun h => ?_, fun h => ?_⟩
  · rcases h with ⟨found, hfound, hrest⟩
    cases found with
    | none => cases hrest
    | some e =>
      obtain ⟨y, hy, hx⟩ := map_eq_ok.1 hrest
      cases hx
      exact ⟨e, soleExtension_eq_some.1 hfound, orFault_eq_ok.1 hy⟩
  · rcases h with ⟨e, he, hx⟩
    exact ⟨some e, soleExtension_eq_some.2 he, map_eq_ok.2 ⟨x, orFault_eq_ok.2 hx, rfl⟩⟩

end

section
variable {c : Certificate}

/-- The key usages are those in the sole extension for them. -/
theorem usages_eq_some {usages : List Bytes} :
    c.usages = .ok (some usages) ↔
      ∃ e, c.extensionsOf keyUsageId = [e] ∧ usages? e.content = some usages :=
  decodeSole_eq_some

/-- The alternative names are those in the sole extension for them. -/
theorem alternativeNames_eq_some {names : List GeneralName} :
    c.alternativeNames = .ok (some names) ↔
      ∃ e, c.extensionsOf alternativeNamesId = [e] ∧ alternativeNames? e.content = some names :=
  decodeSole_eq_some

/-- A certificate is no authority's if its basic constraints say so. -/
theorem isAuthority_eq_false : c.isAuthority = .ok false ↔ c.NotAuthority := by
  rw [isAuthority, bind_eq_ok]
  refine ⟨fun h => ?_, fun h => ?_⟩
  · rcases h with ⟨found, hfound, hfalse⟩
    cases found with
    | none => exact .inl (soleExtension_eq_none.1 hfound)
    | some e =>
      refine .inr ⟨e, soleExtension_eq_some.1 hfound, fun h => ?_⟩
      simp [h] at hfalse
  · rcases h with hnone | ⟨e, he, hne⟩
    · exact ⟨none, soleExtension_eq_none.2 hnone, rfl⟩
    · refine ⟨some e, soleExtension_eq_some.2 he, pure_eq_ok.2 ?_⟩
      cases h : authority? e.content with
      | none => simp [h]
      | some authority => cases authority <;> simp_all

/-! ## Requirements -/

/-- The third version is required, which is written as two. -/
theorem requireVersion3_eq_ok {u : Unit} : c.requireVersion3 = .ok u ↔ c.version = 2 := by
  rw [requireVersion3, require_eq_ok, beq_iff_eq]
  rfl

/-- A certificate passes if it is no authority's. -/
theorem requireNotAuthority_eq_ok {u : Unit} :
    c.requireNotAuthority = .ok u ↔ c.NotAuthority := by
  rw [requireNotAuthority, bind_eq_ok, ← isAuthority_eq_false]
  refine ⟨fun h => ?_, fun h => ?_⟩
  · rcases h with ⟨authority, h, hrequire⟩
    rw [require_eq_ok] at hrequire
    simpa using h.trans (by simpa using hrequire)
  · exact ⟨false, h, require_eq_ok.2 rfl⟩

/-- A model is read from the first extension that names one, which has to be an octet string of
sixteen bytes. -/
theorem aaguidOf_eq_ok {content b : Bytes} :
    aaguidOf content = .ok b ↔
      Der.Value.read content = some (.octets b, []) ∧ b.length = 16 := by
  unfold aaguidOf
  split
  · rename_i found hread
    rw [hread, bind_eq_ok]
    refine ⟨fun h => ?_, fun h => ?_⟩
    · rcases h with ⟨_, hrequire, hpure⟩
      obtain rfl := pure_eq_ok.1 hpure
      exact ⟨rfl, by simpa using hrequire⟩
    · rcases h with ⟨heq, hlength⟩
      cases heq
      exact ⟨(), by simpa using hlength, rfl⟩
  · rename_i hne
    refine ⟨fun h => ?_, fun h => ?_⟩
    · rcases h with ⟨⟩
    · rcases h with ⟨hread, -⟩
      exact absurd hread (hne b)

/-- The model is read from the first extension that names one. -/
theorem aaguid_eq_ok {found : Option AaguidExtension} :
    c.aaguid = .ok found ↔ c.extension? aaguidId = none ∧ found = none ∨
      ∃ e b, c.extension? aaguidId = some e ∧ aaguidOf e.content = .ok b ∧
        found = some ⟨b, e.critical⟩ := by
  unfold aaguid
  cases c.extension? aaguidId with
  | none => simp [eq_comm]
  | some e =>
    refine ⟨fun h => ?_, fun h => ?_⟩
    · obtain ⟨b, hb, hfound⟩ := bind_eq_ok.1 h
      exact .inr ⟨e, b, rfl, hb, (pure_eq_ok.1 hfound).symm⟩
    · rcases h with ⟨⟨⟩, -⟩ | ⟨_, b, ⟨⟩, hb, rfl⟩
      exact bind_eq_ok.2 ⟨b, hb, rfl⟩

end

end Certificate

end Attestation
