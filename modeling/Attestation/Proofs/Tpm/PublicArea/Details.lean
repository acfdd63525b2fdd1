import Attestation.Proofs.Tpm.PublicArea

/-!
# Public areas, written with details

A public area keeps the identifiers of its algorithms and nothing of the details that stand after
them. So it is written from its own fields and from details (`PublicArea.encode`), which may be any
bytes of the sizes that the identifiers tell (`PublicArea.Details.Fit`). The bytes that decode to an
area are exactly those that it is written as with some details, and with other details of these
sizes they decode to the same area (`PublicArea.parse_up_to_details`).
-/

namespace Attestation.Tpm

/-! ## Writing -/

/-- The bytes that stand after the identifiers of algorithms. An area in which an algorithm does not
occur has no use for its details. -/
structure PublicArea.Details where
  symmetric : Bytes := []
  scheme : Bytes := []
  kdf : Bytes := []

/-- The bytes of an algorithm with its details. -/
def algorithmBytes (id : UInt16) (details : Bytes) : Bytes :=
  Bytes.ofNat 2 id.toNat ++ details

/-- The bytes of the parameters and the key of an object. -/
def PublicBody.encode (d : PublicArea.Details) : PublicBody → Bytes
  | .rsa symmetric scheme keyBits exponent modulus =>
    algorithmBytes symmetric d.symmetric ++ algorithmBytes scheme d.scheme ++
      Bytes.ofNat 2 keyBits.toNat ++ Bytes.ofNat 4 exponent.toNat ++ sizedBytes modulus
  | .ecc symmetric scheme curve kdf x y =>
    algorithmBytes symmetric d.symmetric ++ algorithmBytes scheme d.scheme ++
      Bytes.ofNat 2 curve.toNat ++ algorithmBytes kdf d.kdf ++ sizedBytes x ++ sizedBytes y
  | .other b => b

/-- The bytes of a public area. -/
def PublicArea.encode (area : PublicArea) (d : Details) : Bytes :=
  Bytes.ofNat 2 area.type.toNat ++ Bytes.ofNat 2 area.nameAlg.toNat ++
    Bytes.ofNat 4 area.attributes.toNat ++ sizedBytes area.authPolicy ++ area.body.encode d

/-- An object of the type has such parameters and such a key, and its byte strings are no longer
than a length of 16 bits can tell. -/
def PublicBody.Writable (type : UInt16) : PublicBody → Prop
  | .rsa _ _ _ _ modulus => type = rsaId ∧ modulus.length < 65536
  | .ecc _ _ _ _ x y => type = eccId ∧ x.length < 65536 ∧ y.length < 65536
  | .other _ => type ≠ rsaId ∧ type ≠ eccId

/-- The area can be written. -/
structure PublicArea.Writable (area : PublicArea) : Prop where
  authPolicy_lt : area.authPolicy.length < 65536
  body : area.body.Writable area.type

namespace PublicArea

/-- The details have the sizes that the identifiers tell. -/
def Details.Fit (d : Details) : PublicBody → Prop
  | .rsa symmetric scheme _ _ _ =>
    d.symmetric.length = symmetricSize symmetric ∧ d.scheme.length = schemeSize scheme
  | .ecc symmetric scheme _ kdf _ _ =>
    d.symmetric.length = symmetricSize symmetric ∧ d.scheme.length = schemeSize scheme ∧
      d.kdf.length = kdfSize kdf
  | .other _ => True

/-! ## Layouts as they are written -/

/-- An algorithm is written as its identifier and details of the size that this asks for. -/
theorem algorithmEncoding_iff {size : UInt16 → Nat} {b : Bytes} {id : UInt16} :
    AlgorithmEncoding size b id ↔
      ∃ details : Bytes, details.length = size id ∧ b = algorithmBytes id details := by
  refine ⟨fun h => ?_, fun h => ?_⟩
  · obtain ⟨hdetails⟩ := h
    exact ⟨_, hdetails, rfl⟩
  · obtain ⟨details, hdetails, rfl⟩ := h
    exact .intro hdetails

/-- What is laid out as the parameters and the key of an object is written so with some details. -/
theorem BodyEncoding.exists_encode {type : UInt16} {b : Bytes} {body : PublicBody}
    (h : BodyEncoding type b body) :
    body.Writable type ∧ ∃ d : Details, d.Fit body ∧ b = body.encode d := by
  cases h with
  | rsa h =>
    obtain ⟨hsymmetric, hscheme, hmodulus⟩ := h
    obtain ⟨symmetric, hfirst, rfl⟩ := algorithmEncoding_iff.1 hsymmetric
    obtain ⟨scheme, hsecond, rfl⟩ := algorithmEncoding_iff.1 hscheme
    exact ⟨⟨rfl, hmodulus⟩, { symmetric, scheme }, ⟨hfirst, hsecond⟩, rfl⟩
  | ecc h =>
    obtain ⟨hsymmetric, hscheme, hkdf, hx, hy⟩ := h
    obtain ⟨symmetric, hfirst, rfl⟩ := algorithmEncoding_iff.1 hsymmetric
    obtain ⟨scheme, hsecond, rfl⟩ := algorithmEncoding_iff.1 hscheme
    obtain ⟨kdf, hthird, rfl⟩ := algorithmEncoding_iff.1 hkdf
    exact ⟨⟨rfl, hx, hy⟩, { symmetric, scheme, kdf }, ⟨hfirst, hsecond, hthird⟩, rfl⟩
  | other hrsa hecc => exact ⟨⟨hrsa, hecc⟩, {}, trivial, rfl⟩

/-- What can be written is laid out so with all details that fit. -/
theorem bodyEncoding_encode {type : UInt16} {body : PublicBody} {d : Details}
    (hbody : body.Writable type) (hd : d.Fit body) : BodyEncoding type (body.encode d) body := by
  cases body with
  | rsa symmetric scheme keyBits exponent modulus =>
    obtain ⟨rfl, hmodulus⟩ := hbody
    obtain ⟨hsymmetric, hscheme⟩ := hd
    exact .rsa (.intro (.intro hsymmetric) (.intro hscheme) hmodulus)
  | ecc symmetric scheme curve kdf x y =>
    obtain ⟨rfl, hx, hy⟩ := hbody
    obtain ⟨hsymmetric, hscheme, hkdf⟩ := hd
    exact .ecc (.intro (.intro hsymmetric) (.intro hscheme) (.intro hkdf) hx hy)
  | other b =>
    obtain ⟨hrsa, hecc⟩ := hbody
    exact .other hrsa hecc

/-- An area that is written with details that fit is an encoding of it. -/
theorem encoding_encode {area : PublicArea} {d : Details} (harea : area.Writable)
    (hd : d.Fit area.body) : Encoding (area.encode d) area :=
  .intro harea.authPolicy_lt (bodyEncoding_encode harea.body hd)

/-- An area is laid out as it is written with some details. -/
theorem encoding_iff {b : Bytes} {area : PublicArea} :
    Encoding b area ↔ area.Writable ∧ ∃ d : Details, d.Fit area.body ∧ b = area.encode d := by
  refine ⟨fun h => ?_, fun h => ?_⟩
  · obtain ⟨hpolicy, hbody⟩ := h
    obtain ⟨hwritable, d, hd, rfl⟩ := hbody.exists_encode
    exact ⟨⟨hpolicy, hwritable⟩, d, hd, rfl⟩
  · obtain ⟨harea, d, hd, rfl⟩ := h
    exact encoding_encode harea hd

/-! ## Reading -/

/-- The bytes that decode to an area are the ones that it is written as with details of the sizes
that its identifiers tell. They decode to the same area with any others of these sizes, and all
other bytes are malformed. -/
theorem parse_up_to_details (raw : Bytes) :
    (∀ area, parse raw = .ok area ↔
      area.Writable ∧ ∃ d : Details, d.Fit area.body ∧ raw = area.encode d) ∧
    (∀ area d d', parse raw = .ok area → raw = area.encode d → d'.Fit area.body →
      parse (area.encode d') = parse raw) ∧
    ∀ e, parse raw = .error e → e.IsMalformed := by
  have hparse (area : PublicArea) : parse raw = .ok area ↔
      area.Writable ∧ ∃ d : Details, d.Fit area.body ∧ raw = area.encode d := by
    rw [parse_eq_ok_iff, encoding_iff]
  refine ⟨hparse, fun area d d' harea _ hd' => ?_, raises_parse raw⟩
  rw [harea, parse_eq_ok_iff]
  exact encoding_encode ((hparse area).1 harea).1 hd'

/-- A key on a curve with the anonymous signing scheme, which has a counter. -/
def anonymousArea : PublicArea :=
  ⟨eccId, 0x000b, 0, [0xaa], .ecc nullId ecdaaId 3 0x0020 [1] [2]⟩

/-- A hash function and a counter for the signing scheme, and a hash function for the derivation of
keys. -/
def anonymousDetails : Details :=
  { scheme := [0x00, 0x0b, 0x00, 0x01], kdf := [0x00, 0x04] }

/-- The area with two choices of its details, and no area. -/
theorem parse_up_to_details_sample :
    parse (anonymousArea.encode anonymousDetails) = .ok anonymousArea ∧
      parse (anonymousArea.encode { scheme := [1, 2, 3, 4], kdf := [5, 6] }) =
        parse (anonymousArea.encode anonymousDetails) ∧
      ∃ e, parse [] = .error e ∧ e.IsMalformed := by
  obtain ⟨hparse, hothers, -⟩ := parse_up_to_details (anonymousArea.encode anonymousDetails)
  obtain ⟨-, -, hmalformed⟩ := parse_up_to_details []
  have harea := (hparse anonymousArea).2
    ⟨⟨by decide, rfl, by decide, by decide⟩, anonymousDetails, ⟨rfl, rfl, rfl⟩, rfl⟩
  exact ⟨harea, hothers _ anonymousDetails _ harea rfl ⟨rfl, rfl, rfl⟩, _, rfl, hmalformed _ rfl⟩

end PublicArea

end Attestation.Tpm
