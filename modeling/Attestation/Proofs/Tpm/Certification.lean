import Attestation.Digest
import Attestation.Proofs.Tpm.Attest
import Attestation.Tpm.PublicArea

/-!
# Certifications of objects

`Certification` says which bytes certify an object for some data from the caller: the attestation
structures that a TPM generated for this purpose and that name the object by a hash of its public
area (`certification_iff`). The bytes tell the data that they are for (`Certification.hash_eq`).
-/

namespace Attestation

/-- The identifier of the hash function, of those that objects are named by. -/
def Digest.tpmId : Digest → UInt16
  | sha1 => 0x0004
  | sha256 => 0x000b
  | sha384 => 0x000c
  | sha512 => 0x000d

namespace Tpm

/-- A hash function is told by its identifier. -/
theorem digestOfId?_eq_some {id : UInt16} {d : Digest} :
    digestOfId? id = some d ↔ id = d.tpmId := by
  constructor
  · intro h
    unfold digestOfId? at h
    split at h <;> cases h <;> rfl
  · rintro rfl
    cases d <;> rfl

/-- The bytes are the certification of an object with the given public area for the given data:
after magic number, kind and signer come the data, seventeen bytes of clock and eight of firmware,
and then the name of the object, which is made of a hash function and the hash of the area. -/
inductive Certification (extraData pubArea : Bytes) : Bytes → Prop
  | intro {qualifiedSigner clock firmware qualifiedName : Bytes} {digest : Digest} :
    qualifiedSigner.length < 65536 → clock.length = 17 → firmware.length = 8 →
    qualifiedName.length < 65536 →
    Certification extraData pubArea ([0xff, 0x54, 0x43, 0x47] ++ [0x80, 0x17] ++
      sizedBytes qualifiedSigner ++ sizedBytes extraData ++ clock ++ firmware ++
      (sizedBytes (Bytes.ofNat 2 digest.tpmId.toNat ++ digest.hash pubArea) ++
        sizedBytes qualifiedName))

/-- A hash is short enough for a name and for data from the caller. -/
theorem length_hash_lt (d : Digest) (message : Bytes) : (d.hash message).length + 2 < 65536 := by
  rw [Digest.length_hash]
  cases d <;> decide

/-- The bytes of the magic number of structures that a TPM generates. -/
theorem ofNat_generatedMagic :
    Bytes.ofNat 4 Attest.generatedMagic.toNat = [0xff, 0x54, 0x43, 0x47] := by
  decide

/-- The bytes of the type of certifications. -/
theorem ofNat_certifyType : Bytes.ofNat 2 Attest.certifyType.toNat = [0x80, 0x17] := by
  decide

/-- The attestations that bind the data and the area are laid out as certifications. -/
theorem certification_iff {data pubArea b : Bytes} (hdata : data.length < 65536) :
    Certification data pubArea b ↔ ∃ attest info digest, Attest.Encoding b attest ∧
      attest.magic = Attest.generatedMagic ∧ attest.type = Attest.certifyType ∧
      attest.extraData = data ∧ attest.attested = .certify info ∧
      info.nameAlg = Digest.tpmId digest ∧ info.nameDigest = digest.hash pubArea := by
  refine ⟨fun h => ?_, fun h => ?_⟩
  · rcases h with ⟨hsigner, hclock, hfirmware, hname⟩
    rename_i qualifiedSigner clock firmware qualifiedName digest
    obtain ⟨clockInfo, hclockInfo⟩ := Attest.clockEncoding_of_length hclock
    obtain ⟨version, rest, rfl, hlength⟩ := Bytes.exists_word (W := UInt64) (n := 8)
      (fun _ => UInt64.toNat_ofNat_of_lt') (b := firmware) (by omega)
    obtain rfl : rest = [] := List.eq_nil_of_length_eq_zero (by omega)
    rw [List.append_nil, ← ofNat_generatedMagic, ← ofNat_certifyType]
    exact ⟨_, _, digest, .intro hsigner hdata hclockInfo
      (.certify (.intro (length_hash_lt digest pubArea) hname)), rfl, rfl, rfl, rfl, rfl, rfl⟩
  · rcases h with
      ⟨_, _, digest, ⟨hsigner, -, hclock, hattested⟩, hmagic, htype, rfl, hinfo, halg, hhash⟩
    dsimp only at hmagic htype hinfo
    subst hmagic htype hinfo
    cases hattested with
    | certify hcertify =>
      obtain ⟨-, hqualifiedName⟩ := hcertify
      dsimp only at halg hhash
      rw [halg, hhash, ofNat_generatedMagic, ofNat_certifyType]
      exact .intro hsigner (Attest.length_clockEncoding hclock) (Bytes.length_ofNat ..)
        hqualifiedName

/-- The bytes of a certification determine the hash that it is for. -/
theorem Certification.hash_eq {d : Digest} {message₁ message₂ pubArea₁ pubArea₂ b : Bytes}
    (h₁ : Certification (d.hash message₁) pubArea₁ b)
    (h₂ : Certification (d.hash message₂) pubArea₂ b) : d.hash message₁ = d.hash message₂ := by
  have hlength (message : Bytes) : (d.hash message).length < 65536 :=
    Nat.lt_of_add_right_lt (length_hash_lt d message)
  obtain ⟨attest₁, _, _, hparse₁, -, -, hdata₁, -⟩ := (certification_iff (hlength _)).1 h₁
  obtain ⟨attest₂, _, _, hparse₂, -, -, hdata₂, -⟩ := (certification_iff (hlength _)).1 h₂
  rw [← Attest.parse_eq_ok_iff] at hparse₁ hparse₂
  rw [← hdata₁, ← hdata₂, Except.ok.inj (hparse₁.symm.trans hparse₂)]

end Tpm

end Attestation
