import Attestation.Proofs.Certificate.Key
import Attestation.Proofs.Registration
import Attestation.Proofs.Tpm.Attest
import Attestation.Proofs.Tpm.PublicArea
import Attestation.Proofs.Validator
import Attestation.Proofs.Verification.Apple

/-!
# Errors of the procedures

A procedure that is given a statement of its own format never answers that it is one of another
format, or that the format is not supported, and the one for TPM attestations never that an
attestation does not certify an object, which it would have refused for its kind:
`Format.arises_verify` says so for each of them, and the lemmas before it for their steps, most of
which know neither of formats nor of kinds. With the invariant of registrations this tells what each
built-in validator may answer (`registration_invariant`).
-/

namespace Attestation

/-- The error is not about the format: neither that it is not supported nor that the statement is of
another one. -/
def Error.IsOwn : Error → Prop
  | .missingStatement (.otherStatement _) => False
  | .unsupportedFormat _ => False
  | _ => True

/-- The error may arise when a statement is verified by the procedure of its own format: it is not
about the format, nor is it that an attestation of a TPM of the kind that certifies an object does
not certify one. -/
def Error.Arises : Error → Prop
  | .missingStatement (.otherStatement _) => False
  | .unsupportedFormat _ => False
  | .structuralMismatch .notCertifyInfo => False
  | _ => True

namespace Error

/-- An error that may arise in the procedure of a format is not about the format. -/
theorem Arises.isOwn {e : Error} (h : e.Arises) : e.IsOwn := by
  unfold IsOwn
  split
  · exact h
  · exact h
  · trivial

/-- A complaint about malformed bytes may arise in any procedure. -/
theorem IsMalformed.arises {e : Error} : e.IsMalformed → e.Arises
  | .intro _ => trivial

/-- A complaint about a certificate may arise in any procedure. -/
theorem OfCertificate.arises {e : Error} : e.OfCertificate → e.Arises
  | .intro _ => trivial

end Error

open Error (Arises IsOwn)

/-! ## Certificates -/

namespace Certificate

variable (c : Certificate)

/-- A requirement on a certificate is refused with a complaint about the certificate. -/
theorem arises_require (condition : Bool) (fault : CertificateFault) :
    Raises Arises (require condition fault) := by
  cases condition with
  | true => exact .ok ()
  | false => exact .error trivial

/-- What is missing in a certificate is a complaint about the certificate. -/
theorem arises_orFault {α : Type} (fault : CertificateFault) (x : Option α) :
    Raises Arises (orFault fault x) :=
  (Raises.orFault fault x).mono fun _ => Error.OfCertificate.arises

/-- A certificate that cannot be read is a complaint about certificates. -/
theorem arises_parse (der : Bytes) : Raises Arises (parse der) := by
  unfold parse
  split
  · exact .ok _
  · exact .error trivial
  · exact .error trivial

/-- An empty list has no first certificate, and another one is read. -/
theorem arises_leafCertificate (certificates : List Bytes) :
    Raises Arises (leafCertificate certificates) := by
  cases certificates with
  | nil => exact .error trivial
  | cons der _ => exact arises_parse der

/-- A key that is not supported is told by its algorithm or its certificate. -/
theorem arises_publicKey : Raises Arises c.publicKey := by
  unfold publicKey
  split
  · exact .ok _
  split
  · exact arises_orFault _ _
  split
  · exact (raises_ecKey _).mono fun _ => Error.OfCertificate.arises
  split
  · exact .error trivial
  · exact .error trivial

/-- An extension that is repeated is a complaint about the certificate. -/
theorem arises_soleExtension (id : Bytes) (fault : CertificateFault) :
    Raises Arises (c.soleExtension id fault) := by
  unfold soleExtension
  split
  · exact .ok _
  · exact .ok _
  · exact .error trivial

/-- The basic constraints are missing, unreadable or those of an authority. -/
theorem arises_requireNotAuthority : Raises Arises c.requireNotAuthority := by
  refine .bind ?_ fun _ => arises_require _ _
  exact (c.arises_soleExtension _ _).bind fun _ => .pure _

/-- What is decoded from the only extension of a type is refused for the certificate's sake. -/
theorem arises_decodeSole {α : Type} (id : Bytes) (fault : CertificateFault)
    (decode : Bytes → Option α) :
    Raises Arises (do
      match ← c.soleExtension id fault with
      | some e => some <$> orFault fault (decode e.content)
      | none => return none : Result (Option α)) := by
  refine (c.arises_soleExtension id fault).bind fun found => ?_
  cases found with
  | some e => exact (arises_orFault _ _).map _
  | none => exact .pure _

/-- The extended key usages are looked up like every sole extension. -/
theorem arises_usages : Raises Arises c.usages :=
  c.arises_decodeSole _ _ _

/-- The alternative names are looked up like every sole extension. -/
theorem arises_alternativeNames : Raises Arises c.alternativeNames :=
  c.arises_decodeSole _ _ _

/-- The identifier of a model is looked up first and then read. -/
theorem arises_aaguid : Raises Arises c.aaguid := by
  unfold aaguid
  split
  · refine .bind ?_ fun _ => .pure _
    unfold aaguidOf
    split
    · exact (arises_require _ _).bind fun _ => .pure _
    · exact .error trivial
  · exact .ok none

/-- The nonce of a certificate is looked up first and then read. -/
theorem arises_appleNonce : Raises Arises c.appleNonce := by
  refine (arises_orFault _ _).bind fun e => ?_
  unfold appleNonceOf
  split
  · refine (arises_orFault _ _).bind fun _ => ?_
    exact (arises_orFault _ _).bind fun _ => .pure _
  · exact .error trivial

/-- The description of a key is looked up first and then read. -/
theorem arises_keyDescription : Raises Arises c.keyDescription := by
  refine (arises_orFault _ _).bind fun e => ?_
  unfold KeyDescription.parse
  dsimp only
  split
  · exact .ok _
  · exact .error trivial
  · exact .error trivial

end Certificate

/-! ## Keys and signatures -/

/-- A credential that the authenticator data lack is told as missing. -/
theorem Registration.arises_credential (r : Registration) : Raises Arises r.credential := by
  unfold credential AuthenticatorData.requireCredential
  split
  · exact .ok _
  · exact .error trivial

namespace CredentialKey

/-- An empty number is malformed. -/
theorem arises_magnitude (field : String) (b : Bytes) : Raises Arises (magnitude field b) := by
  unfold magnitude
  split
  · exact .error trivial
  · exact .ok _

/-- Two numbers are compared as soon as none of them is empty. -/
theorem arises_sameNumber (field : String) (a b : Bytes) : Raises Arises (sameNumber field a b) :=
  (arises_magnitude _ _).bind fun _ => (arises_magnitude _ _).bind fun _ => .pure _

/-- Keys are compared number by number, and only an empty one is refused. -/
theorem arises_denotes (k : CredentialKey) (p : PublicKey) : Raises Arises (k.denotes p) := by
  unfold denotes
  split
  · refine (arises_magnitude _ _).bind fun _ => (arises_magnitude _ _).bind fun _ => ?_
    exact (arises_magnitude _ _).bind fun _ => (arises_magnitude _ _).bind fun _ => .pure _
  · split
    · refine (arises_sameNumber _ _ _).bind fun sameX => ?_
      split
      · exact arises_sameNumber _ _ _
      · exact .pure _
    · exact .ok _
  · split
    · exact .error trivial
    · exact .ok _
  · exact .ok _

end CredentialKey

/-- A point is refused for its curve or for a coordinate that is too long. -/
theorem PublicKey.arises_encodePoint (curve : Curve) (x y : Bytes) :
    Raises Arises (encodePoint curve x y) := by
  unfold encodePoint
  dsimp only
  split
  · exact .error trivial
  · exact .ok _

namespace Algorithm

/-- An identifier without an algorithm is not supported. -/
theorem arises_ofId (n : Int) : Raises Arises (ofId n) := by
  unfold ofId
  split
  · exact .ok _
  · exact .error trivial

/-- An algorithm whose signatures do not sign a hash gives none. -/
theorem arises_hash (alg : Algorithm) (message : Bytes) : Raises Arises (alg.hash message) := by
  refine .bind ?_ fun _ => .pure _
  unfold digest
  split
  · exact .ok _
  · exact .error trivial

/-- A signature that was not accepted is invalid. -/
theorem arises_require (alg : Algorithm) (accepted : Bool) :
    Raises Arises (alg.require accepted) := by
  cases accepted with
  | true => exact .ok ()
  | false => exact .error trivial

/-- A signature on a curve is refused for the curve, the point or itself. -/
theorem arises_verifyOnCurve {alg : Algorithm} {expected : Curve} {c : PrimeCurve} {digest : Digest}
    {curve : Curve} {x y message sig : Bytes} :
    Raises Arises (alg.verifyOnCurve expected c digest curve x y message sig) := by
  unfold verifyOnCurve
  split
  · exact (PublicKey.arises_encodePoint _ _ _).bind fun _ => alg.arises_require _
  · exact .error trivial

/-- What an algorithm refuses, it refuses for the type of the key or the signature. -/
theorem arises_verify (alg : Algorithm) (key : PublicKey) (message sig : Bytes) :
    Raises Arises (alg.verify key message sig) := by
  unfold verify
  split
  · exact arises_verifyOnCurve
  · exact arises_verifyOnCurve
  · exact .error trivial
  · exact arises_require _ _
  · split
    · exact arises_require _ _
    · exact .error trivial
  · exact .error trivial

end Algorithm

/-! ## TPM attestations -/

namespace TpmDevice

/-- A value of an attribute that is no text is a complaint about the certificate. -/
theorem arises_attributeText (a : NameAttribute) : Raises Arises (attributeText a) :=
  (Certificate.arises_require _ _).bind fun _ => Certificate.arises_orFault _ _

/-- An attribute is refused only for its value. -/
theorem arises_add (found : Attributes) (a : NameAttribute) : Raises Arises (found.add a) := by
  unfold Attributes.add
  split
  · exact (arises_attributeText a).bind fun _ => .pure _
  split
  · exact (arises_attributeText a).bind fun _ => .pure _
  split
  · exact (arises_attributeText a).bind fun _ => .pure _
  · exact .ok _

/-- Names give a device, or a complaint about the certificate that has them. -/
theorem arises_ofNames (names : List GeneralName) : Raises Arises (ofNames names) := by
  refine .bind ?_ fun found => ?_
  · -- The attributes found so far are arbitrary, as each step of the fold starts from more of them.
    generalize nameAttributes names = as
    suffices h : ∀ found : Attributes, Raises Arises (as.foldlM Attributes.add found) from h {}
    induction as with
    | nil => exact fun _ => .pure _
    | cons a as ih => exact fun found => (arises_add found a).bind fun next => ih next
  · unfold ofAttributes
    split
    · exact .ok _
    · exact .error trivial

end TpmDevice

/-- The certificate of an attestation key is refused for what it says, or by the policy for the
device that it names. -/
theorem Certificate.arises_checkAttestationKey (policy : TpmDevicePolicy) (c : Certificate) :
    Raises Arises (c.checkAttestationKey policy) := by
  refine (arises_require _ _).bind fun _ => (arises_require _ _).bind fun _ => ?_
  refine .bind ?_ fun device => .bind ?_ fun _ => ?_
  · refine c.arises_alternativeNames.bind fun _ => ?_
    exact (arises_orFault _ _).bind fun names => TpmDevice.arises_ofNames names
  · unfold TpmDevicePolicy.check
    split
    · exact .ok ()
    · exact .error trivial
  · refine c.arises_usages.bind fun _ => (arises_orFault _ _).bind fun _ => ?_
    exact (arises_require _ _).bind fun _ => c.arises_requireNotAuthority

namespace TpmStatement

/-- A public area is refused because it does not have the credential key. -/
theorem arises_checkKey (key : CredentialKey) (area : Tpm.PublicArea) :
    Raises Arises (checkKey key area) := by
  unfold checkKey
  split
  · exact (key.arises_denotes _).bind fun _ => .ensure trivial
  · exact (Raises.pure false).bind fun _ => .ensure trivial

/-- An attestation that was read certifies an object if its kind says so, and the kind is looked at
before the object. -/
theorem arises_checkAttest {certInfo : Bytes} {attest : Tpm.Attest}
    (hparse : Tpm.Attest.parse certInfo = .ok attest) (alg : Int) (signedData pubArea : Bytes) :
    Raises Arises (checkAttest attest alg signedData pubArea) := by
  refine .bind (.ensure trivial) fun _ => .bind_of_ok (.ensure trivial) fun _ htype => ?_
  refine (Algorithm.arises_ofId alg).bind fun alg => (alg.arises_hash _).bind fun _ => ?_
  refine .bind (.ensure trivial) fun _ => .bind ?_ fun info => .bind ?_ fun _ => .ensure trivial
  · have htype : attest.type = Tpm.Attest.certifyType := by simpa using htype
    obtain ⟨info, hinfo⟩ := (Tpm.Attest.certifies_iff hparse).2 htype
    rw [hinfo]
    exact .ok info
  · unfold nameDigest
    split
    · exact .ok _
    · exact .error trivial

/-- The procedure for TPM attestations. By the time an attestation is asked for the object that it
certifies, those of other kinds are refused. -/
theorem arises_verify (policy : TpmDevicePolicy) (s : TpmStatement) (r : Registration) :
    Raises Arises (s.verify policy r) := by
  have hmalformed (e : Error) (h : e.IsMalformed) : e.Arises := h.arises
  refine .bind (.orError trivial) fun certInfo => ?_
  refine .bind (.orError trivial) fun pubArea => ?_
  refine .bind (.ensure trivial) fun _ => r.arises_credential.bind fun credential => ?_
  refine ((Tpm.PublicArea.raises_parse pubArea).mono hmalformed).bind fun area => ?_
  refine (arises_checkKey _ area).bind fun _ => ?_
  refine ((Tpm.Attest.raises_parse certInfo).mono hmalformed).bind_of_ok fun attest hparse => ?_
  refine (arises_checkAttest hparse _ _ _).bind fun _ => .bind ?_ fun certificates => ?_
  · unfold attestationCertificates
    split
    · exact .ok _
    · exact .error trivial
    · exact .error trivial
  refine (Certificate.arises_leafCertificate _).bind fun leaf => ?_
  refine leaf.arises_publicKey.bind fun _ => ?_
  refine (Algorithm.arises_ofId _).bind fun alg => (alg.arises_verify _ _ _).bind fun _ => ?_
  refine (leaf.arises_checkAttestationKey policy).bind fun _ => .bind ?_ fun _ => .pure _
  refine leaf.arises_aaguid.bind fun found => ?_
  cases found with
  | none => exact .pure _
  | some _ => exact Certificate.arises_require _ _

end TpmStatement

/-! ## Other certified attestations -/

/-- The certificate of an authenticator is refused for what it says. -/
theorem Certificate.arises_checkAuthenticator (c : Certificate) (aaguid : Bytes) :
    Raises Arises (c.checkAuthenticator aaguid) := by
  refine (arises_require _ _).bind fun _ => ?_
  refine .bind ((arises_orFault _ _).map _) fun _ => ?_
  refine .bind ((arises_orFault _ _).map _) fun _ => ?_
  refine .bind ((arises_orFault _ _).map _) fun _ => ?_
  refine (arises_orFault _ _).bind fun _ => (arises_orFault _ _).bind fun _ => ?_
  refine (arises_require _ _).bind fun _ => c.arises_requireNotAuthority.bind fun _ => ?_
  refine c.arises_aaguid.bind fun found => ?_
  cases found with
  | none => exact .pure _
  | some _ => exact (arises_require _ _).bind fun _ => arises_require _ _

/-- The procedure for packed attestations. -/
theorem PackedStatement.arises_verify (s : PackedStatement) (r : Registration) :
    Raises Arises (s.verify r) := by
  refine r.arises_credential.bind fun credential => (Algorithm.arises_ofId _).bind fun alg => ?_
  split
  · refine (Certificate.arises_leafCertificate _).bind fun leaf => ?_
    refine leaf.arises_publicKey.bind fun _ => (alg.arises_verify _ _ _).bind fun _ => ?_
    exact (leaf.arises_checkAuthenticator _).bind fun _ => .pure _
  · exact .error trivial
  · refine .bind (.ensure trivial) fun _ => ?_
    exact (alg.arises_verify _ _ _).bind fun _ => .pure _
  · exact .error trivial

/-- The procedure for attestations with a described key. -/
theorem AndroidKeyStatement.arises_verify (teeOnly : Bool) (s : AndroidKeyStatement)
    (r : Registration) : Raises Arises (s.verify teeOnly r) := by
  refine r.arises_credential.bind fun credential => ?_
  refine (Certificate.arises_leafCertificate _).bind fun leaf => ?_
  refine leaf.arises_publicKey.bind fun key => ?_
  refine (Algorithm.arises_ofId _).bind fun alg => (alg.arises_verify _ _ _).bind fun _ => ?_
  refine (credential.key.arises_denotes key).bind fun _ => .bind (.ensure trivial) fun _ => ?_
  refine leaf.arises_keyDescription.bind fun description => .bind ?_ fun _ => .pure _
  refine .bind (.ensure trivial) fun _ => .bind (.ensure trivial) fun _ => ?_
  exact .bind (.ensure trivial) fun _ => .ensure trivial

/-- The procedure for attestations of security keys. -/
theorem FidoU2fStatement.arises_verify (s : FidoU2fStatement) (r : Registration) :
    Raises Arises (s.verify r) := by
  refine (Certificate.arises_require _ _).bind fun _ => ?_
  refine (Certificate.arises_leafCertificate _).bind fun leaf => ?_
  refine leaf.arises_publicKey.bind fun key => ?_
  refine .bind ?_ fun _ => r.arises_credential.bind fun credential => .bind ?_ fun ⟨x, y⟩ => ?_
  · unfold checkKey
    split
    · exact .ok ()
    · exact .error trivial
  · unfold coordinates
    split
    · split
      · exact .ok _
      · exact .error trivial
    · exact .error trivial
  · exact (Algorithm.es256.arises_verify _ _ _).bind fun _ => .pure _

/-- The procedure for anonymous attestations. -/
theorem AppleStatement.arises_verify (s : AppleStatement) (r : Registration) :
    Raises Arises (s.verify r) := by
  refine r.arises_credential.bind fun credential => ?_
  refine (Certificate.arises_leafCertificate _).bind fun leaf => ?_
  refine leaf.arises_appleNonce.bind fun _ => ?_
  refine .bind (.ensure trivial) fun _ => leaf.arises_publicKey.bind fun key => ?_
  exact (credential.key.arises_denotes key).bind fun _ => .bind (.ensure trivial) fun _ => .pure _

/-! ## Responses of the attestation service -/

namespace SafetyNet

/-- A token that cannot be read is malformed. -/
theorem Token.arises_parse (b : Bytes) : Raises Arises (Token.parse b) := by
  unfold Token.parse
  dsimp only
  split
  · exact .ok _
  · exact .error trivial

/-- A signature of a token that was not accepted is invalid. -/
theorem Token.arises_require (accepted : Option Bool) : Raises Arises (Token.require accepted) := by
  unfold Token.require
  split
  · exact .ok ()
  · exact .error trivial

/-- A token is refused for its algorithm, for a point or for its signature. -/
theorem Token.arises_verify (t : Token) (alg : TokenAlgorithm) (key : PublicKey) :
    Raises Arises (t.verify alg key) := by
  unfold Token.verify
  dsimp only
  split
  · exact arises_require _
  · exact (PublicKey.arises_encodePoint _ _ _).bind fun _ => arises_require _
  · exact .error trivial

/-- A response that cannot be read is malformed. -/
theorem Response.arises_ofPayload (payload : Bytes) :
    Raises Arises (Response.ofPayload payload) := by
  unfold Response.ofPayload
  split
  · exact .error trivial
  · split
    · exact .ok _
    · exact .error trivial

/-- A timestamp is refused as missing, as too old or as too far in the future. -/
theorem arises_checkTimestamp (now : Instant) (backward forward : Duration)
    (timestamp : Option Int) :
    Raises Arises (checkTimestamp now backward forward timestamp) := by
  unfold checkTimestamp
  split
  · split
    · exact .error trivial
    · split
      · exact .error trivial
      · exact .ok ()
  · exact .error trivial

end SafetyNet

/-- The procedure for signed responses. -/
theorem SafetyNetStatement.arises_verify (config : Config) (now : Instant) (s : SafetyNetStatement)
    (r : Registration) : Raises Arises (s.verify config now r) := by
  refine .bind (r.arises_credential.map _) fun _ => ?_
  refine .bind (.ensure trivial) fun _ => .bind (.ensure trivial) fun _ => ?_
  refine (SafetyNet.Token.arises_parse _).bind fun ⟨token, header⟩ => .bind ?_ fun certs => ?_
  · unfold certificates
    split
    · exact .error trivial
    · split
      · exact .pure _
      · exact .error trivial
  refine .bind ?_ fun leaf => leaf.arises_publicKey.bind fun key => ?_
  · unfold signerCertificate
    split
    · exact Certificate.arises_parse _
    · exact .error trivial
  refine (token.arises_verify _ key).bind fun _ => (Certificate.arises_require _ _).bind fun _ => ?_
  refine (SafetyNet.Response.arises_ofPayload _).bind fun response => .bind ?_ fun _ => .pure _
  refine .bind (.ensure trivial) fun _ => .bind (.ensure trivial) fun _ => ?_
  exact SafetyNet.arises_checkTimestamp _ _ _ _

/-! ## All formats -/

/-- No statement is refused by the procedure of its own format for being one of another, nor an
attestation for what its kind excludes. -/
theorem Format.arises_verify (config : Config) (now : Instant) (r : Registration) :
    Raises Arises (r.statement.format.verify config now r) := by
  rw [Format.verify_own]
  split
  · exact TpmStatement.arises_verify _ _ _
  · exact PackedStatement.arises_verify _ _
  · exact AndroidKeyStatement.arises_verify _ _ _
  · exact SafetyNetStatement.arises_verify _ _ _ _
  · exact FidoU2fStatement.arises_verify _ _
  · exact AppleStatement.arises_verify _ _
  · exact r.arises_credential.map _

namespace Validator

variable {config : Config} {now : Instant} {f : Format}

/-- A built-in validator supports the name of its own format only. -/
theorem supports_iff {g : Format} :
    (builtIn config now f).supports g.name = true ↔ f = g := by
  rw [builtIn, beq_iff_eq, Format.name_inj]
  exact eq_comm

/-- The validator for the format of a statement has no complaint about the format. -/
theorem isOwn_validate (r : Registration) (h : f = r.statement.format) :
    Raises IsOwn ((builtIn config now f).validate r) := by
  subst h
  rw [builtIn_of_format rfl]
  exact (Format.arises_verify config now r).mono fun _ => Error.Arises.isOwn

/-- What a validator refuses, it refuses for an error of its procedure or for its format. -/
theorem arises_of_validate_eq_error {r : Registration} {e : Error}
    (h : (builtIn config now f).validate r = .error e) :
    e.Arises ∨ e = .unsupportedFormat (.unknown r.format) := by
  by_cases hformat : r.statement.format = f
  · subst hformat
    rw [builtIn_of_format rfl] at h
    exact .inl (Format.arises_verify config now r e h)
  · rw [builtIn_of_ne hformat] at h
    cases h
    exact .inr rfl

/-- No validator is ever left with a statement of another format. -/
theorem validate_ne_otherStatement (r : Registration) (g : Format) :
    (builtIn config now f).validate r ≠ .error (.missingStatement (.otherStatement g)) := by
  intro h
  rcases arises_of_validate_eq_error h with harises | heq
  · exact harises
  · cases heq

/-- No validator is ever left with an attestation that certifies no object though it is of the kind
that does. -/
theorem validate_ne_notCertifyInfo (r : Registration) :
    (builtIn config now f).validate r ≠ .error (.structuralMismatch .notCertifyInfo) := by
  intro h
  rcases arises_of_validate_eq_error h with harises | heq
  · exact harises
  · cases heq

end Validator

/-- In whatever way a registration was made, its parts belong together: the hash has 32 bytes, the
bytes decode to the authenticator data and say what these say, and the format is the one of the
statement. So one built-in validator supports the format, the one for the statement, and has no
complaint about it, while the others say that they do not support it. None asks for a statement of
another format. -/
theorem registration_invariant {name : String} {raw hash : Bytes} {r : Registration}
    (h : r.Built name raw hash) :
    (r.authenticatorBytes = raw ∧ r.clientDataHash = hash ∧ hash.length = 32) ∧
      (∃ d, AuthenticatorData.parse raw = .ok d ∧ d.same r.object.authData = true) ∧
      r.object.authData.ToldBy raw ∧
      (r.format = name ∧ name = r.statement.format.name) ∧
      ∀ config now f, let validator := Validator.builtIn config now f
        (validator.supports name = true ↔ f = r.statement.format) ∧
        (validator.supports name = true → Raises Error.IsOwn (validator.validate r)) ∧
        (validator.supports name = false →
          validator.validate r = .error (.unsupportedFormat (.unknown name))) ∧
        ∀ g, validator.validate r ≠ .error (.missingStatement (.otherStatement g)) := by
  have hname := h.name_eq
  obtain ⟨hraw, hhash⟩ := h.parts
  subst hname hraw hhash
  refine ⟨⟨rfl, rfl, r.length_clientDataHash⟩, r.decodes, r.toldBy, ⟨r.format_eq, rfl⟩,
    fun config now f => ?_⟩
  have hsupports : (Validator.builtIn config now f).supports r.statement.format.name = true ↔
      f = r.statement.format := Validator.supports_iff
  refine ⟨hsupports, fun h => Validator.isOwn_validate r (hsupports.1 h), fun h => ?_,
    Validator.validate_ne_otherStatement r⟩
  rw [← r.format_eq]
  refine Validator.builtIn_of_ne fun hformat => ?_
  rw [hsupports.2 hformat.symm] at h
  cases h

/-- An anonymous attestation of a credential: the authenticator data are told by the bytes, the
validator of its format accepts it, and every other one says that it does not support the format. -/
theorem registration_invariant_apple :
    AppleSample.registration.Built "apple" AppleSample.authenticatorBytes
        AppleSample.clientDataHash ∧
      AppleSample.registration.object.authData.ToldBy AppleSample.authenticatorBytes ∧
      AppleSample.registration.object.authData.credential.isSome = true ∧
      (∀ config now, (Validator.builtIn config now .apple).validate AppleSample.registration =
        .ok ⟨.anonCa, some AppleSample.statement.certificates⟩) ∧
      ∀ config now f, f ≠ .apple →
        (Validator.builtIn config now f).validate AppleSample.registration =
          .error (.unsupportedFormat (.unknown "apple")) := by
  have hbuilt : AppleSample.registration.Built "apple" AppleSample.authenticatorBytes
      AppleSample.clientDataHash :=
    .make (.ofParts (AttestationObject.ofParts_eq_ok.2 ⟨rfl, rfl⟩))
      (Registration.make_of_decodes rfl rfl rfl)
  obtain ⟨-, -, htold, -, hvalidators⟩ := registration_invariant hbuilt
  refine ⟨hbuilt, htold, rfl, fun config now => ?_, fun config now f hf => ?_⟩
  · exact AppleStatement.validate_eq_ok.2
      ⟨_, rfl, (AppleStatement.verify_eq_ok.1 AppleSample.verify_eq_ok).1, rfl⟩
  · obtain ⟨hsupports, -, hunsupported, -⟩ := hvalidators config now f
    exact hunsupported (Bool.eq_false_iff.2 fun h => hf (hsupports.1 h))

end Attestation
