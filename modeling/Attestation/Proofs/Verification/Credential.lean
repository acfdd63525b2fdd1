import Attestation.Proofs.Certificate.Nonce
import Attestation.Proofs.Verification.Apple
import Attestation.Proofs.Verification.FidoU2f

/-!
# Attestations of one credential

The statements of the two formats that name no algorithm have certificates that vouch for a single
credential: an anonymous certificate by a nonce and its own key, without a signature, and the
certificate of a security key by a signature over identifier and point of the credential
(`apple_fidoU2f_validate_eq_ok_iff`). What an anonymous certificate has as its nonce is told by its
bytes.
-/

namespace Attestation

/-- The validator of anonymous attestations accepts those whose first certificate has the credential
key and, as its nonce, the hash of the signed data; the nonce of a certificate is the octet string
that its extension is the encoding of. The validator of security keys accepts those whose one
certificate has a key on P-256 under which the message of the registration is signed. The trust path
is the one of the statement for both. -/
theorem apple_fidoU2f_validate_eq_ok_iff {config : Config} {now : Instant} {r : Registration}
    {v : Verdict} :
    ((Validator.builtIn config now .apple).validate r = .ok v ↔
      ∃ s, r.statement = .apple s ∧ s.Accepts r ∧ v = ⟨.anonCa, some s.certificates⟩) ∧
    (∀ (c : Certificate) (e : CertificateExtension) (nonce : Bytes),
      c.extension? Certificate.appleNonceId = some e →
      Certificate.NonceEncoding nonce e.content → c.appleNonce = .ok nonce) ∧
    ((Validator.builtIn config now .fidoU2f).validate r = .ok v ↔
      ∃ s, r.statement = .fidoU2f s ∧ s.Accepts r ∧ v = ⟨.basic, some s.certificates⟩) := by
  refine ⟨AppleStatement.validate_eq_ok, fun c e nonce he hnonce => ?_,
    FidoU2fStatement.validate_eq_ok⟩
  exact Certificate.appleNonce_of_encoding he hnonce

end Attestation
