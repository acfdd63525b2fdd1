import Attestation.Certificate.Extension
import Attestation.Proofs.Der.Encoding
import Attestation.Proofs.Result

/-!
# Nonces of certificates

The extension with the nonce of an anonymous attestation holds a sequence of one part, tagged with
1, that holds the nonce as an octet string. A content that is written so by the distinguished rules
is decoded to the nonce in it (`appleNonce_of_encoding`), however long that is, and every nonce can
be written so (`exists_nonceEncoding`).
-/

namespace Attestation.Certificate

open Der

/-- The identifier of the part that holds a nonce: its tag is 1 of the context, and it consists of
one element. -/
def nonceIdentifier : UInt8 := 0xa1

/-- The bytes are the nonce as an octet string, in the part that holds it, in a sequence. -/
inductive NonceEncoding (nonce : Bytes) : Bytes → Prop
  | intro {octets part b : Bytes} : Encoding octetsIdentifier nonce octets →
    Encoding nonceIdentifier octets part → Encoding sequenceIdentifier part b →
    NonceEncoding nonce b

/-! ## Decoding -/

/-- A sequence of one tagged part is decoded to that, with the content of the part undecoded. -/
theorem read_sequence_of_part {octets part b : Bytes} (hpart : Encoding nonceIdentifier octets part)
    (hsequence : Encoding sequenceIdentifier part b) :
    Value.read b = some (.sequence [.tagged nonceNumber octets], []) := by
  have hread := hsequence.read_eq_some (by decide)
  have hparts := hpart.all_readBasic (by decide)
  have htagged (depth : Nat) : Value.ofElement (depth + 1) (.ofIdentifier nonceIdentifier octets) =
      some (.tagged nonceNumber octets) := rfl
  have hvalue : Value.ofElement Value.maxDepth (.ofIdentifier sequenceIdentifier part) =
      some (.sequence [.tagged nonceNumber octets]) := by
    have hclass : (Element.ofIdentifier sequenceIdentifier part).tagClass = .universal := rfl
    have hnumber : (Element.ofIdentifier sequenceIdentifier part).number = TagNumber.sequence := rfl
    have hconstructed : (Element.ofIdentifier sequenceIdentifier part).constructed = true := rfl
    have hcontent : (Element.ofIdentifier sequenceIdentifier part).content = part := rfl
    rw [Value.maxDepth, Value.ofElement, if_neg (by simp [hclass]), if_pos (.inl hnumber),
      if_pos hconstructed, hcontent, hparts]
    simp [htagged, hnumber, TagNumber.sequence, TagNumber.set]
  have hdistinguished : Value.isDistinguished (.ofIdentifier sequenceIdentifier part) = true := rfl
  simp only [Value.read, hread, Value.ofDistinguished?, hdistinguished, or_true, if_true, hvalue,
    Option.bind_eq_bind, Option.bind_some, Option.pure_def]

/-- A nonce is read from every encoding of it. -/
theorem appleNonceOf_of_encoding {nonce b : Bytes} (h : NonceEncoding nonce b) :
    appleNonceOf b = .ok nonce := by
  obtain ⟨hoctets, hpart, hsequence⟩ := h
  rename_i octets part
  have hread := read_sequence_of_part hpart hsequence
  have hcontent : nonceContent? [.tagged nonceNumber octets] = some octets := rfl
  have hnonce : Element.readNumbered TagNumber.octetString octets =
      some (.ofIdentifier octetsIdentifier nonce, []) := by
    simp only [Element.readNumbered, hoctets.read_eq_some (by decide), Option.bind_eq_bind,
      Option.bind_some]
    rfl
  simp only [appleNonceOf, hread]
  refine bind_eq_ok.2 ⟨octets, orFault_eq_ok.2 hcontent, ?_⟩
  exact bind_eq_ok.2 ⟨_, orFault_eq_ok.2 hnonce, rfl⟩

/-- A certificate has the nonce that its extension is the encoding of. -/
theorem appleNonce_of_encoding {c : Certificate} {e : CertificateExtension} {nonce : Bytes}
    (he : c.extension? appleNonceId = some e) (h : NonceEncoding nonce e.content) :
    c.appleNonce = .ok nonce :=
  bind_eq_ok.2 ⟨e, orFault_eq_ok.2 he, appleNonceOf_of_encoding h⟩

/-! ## Encodings -/

/-- Every nonce has an encoding, if its length can be written with two headers before it. -/
theorem exists_nonceEncoding {nonce : Bytes} (h : nonce.length + 20 < lengthLimit) :
    ∃ b, NonceEncoding nonce b := by
  obtain ⟨octets, hoctets⟩ :=
    exists_encoding octetsIdentifier (show nonce.length < lengthLimit by omega)
  have hoctetsLength := hoctets.length_le
  obtain ⟨part, hpart⟩ :=
    exists_encoding nonceIdentifier (show octets.length < lengthLimit by omega)
  have hpartLength : part.length < lengthLimit := by
    have := hpart.length_le
    omega
  obtain ⟨b, hsequence⟩ := exists_encoding sequenceIdentifier hpartLength
  exact ⟨b, .intro hoctets hpart hsequence⟩

end Attestation.Certificate
