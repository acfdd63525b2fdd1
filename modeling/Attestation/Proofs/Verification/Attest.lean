import Attestation.Proofs.Verification.Errors

/-!
# Attestation structures, read and written

An attestation structure of a TPM begins with the same fields whatever it attests
(`Attest.Heading`), and the name of a certified object is one byte string of which the first two
bytes are split off (`CertifyInfo.ofName`). So the layout is told by the fields as they are written
(`encoding_iff`). `Attest.encode` writes a structure, and changes at most the byte of the clock for
which any number but zero means the same (`encode_of_parse`). `Attest.parse_iff_written` puts
together what is read from which bytes, what they become when they are written again, and that the
verification never meets an attestation that certifies no object though its kind says so.
-/

namespace Attestation.Tpm

/-! ## Writing -/

/-- The bytes of a clock; it is written to be safe as 1. -/
def ClockInfo.encode (info : ClockInfo) : Bytes :=
  Bytes.ofNat 8 info.clock.toNat ++ Bytes.ofNat 4 info.resetCount.toNat ++
    Bytes.ofNat 4 info.restartCount.toNat ++ [if info.safe then 1 else 0]

/-- The bytes of what is attested. -/
def Attested.encode : Attested → Bytes
  | .certify info => sizedBytes (Bytes.ofNat 2 info.nameAlg.toNat ++ info.nameDigest) ++
      sizedBytes info.qualifiedName
  | .other b => b

/-- The bytes of an attestation structure. -/
def Attest.encode (a : Attest) : Bytes :=
  Bytes.ofNat 4 a.magic.toNat ++ Bytes.ofNat 2 a.type.toNat ++ sizedBytes a.qualifiedSigner ++
    sizedBytes a.extraData ++ a.clockInfo.encode ++ Bytes.ofNat 8 a.firmwareVersion.toNat ++
    a.attested.encode

/-! ## Fields as they are written -/

/-- The certified object with the given name, of which the first two bytes are the identifier of
the hash algorithm, and the given qualified name. -/
def CertifyInfo.ofName (name qualifiedName : Bytes) : CertifyInfo :=
  ⟨UInt16.ofNat (Bytes.toNat (name.take 2)), name.drop 2, qualifiedName⟩

/-- A name that is put together is taken apart again. -/
theorem CertifyInfo.ofName_append (alg : UInt16) (digest qualifiedName : Bytes) :
    ofName (Bytes.ofNat 2 alg.toNat ++ digest) qualifiedName = ⟨alg, digest, qualifiedName⟩ := by
  have hlength : (Bytes.ofNat 2 alg.toNat).length = 2 := Bytes.length_ofNat ..
  rw [ofName, List.take_left' hlength, List.drop_left' hlength, Bytes.toNat_ofNat alg.toNat_lt,
    UInt16.ofNat_toNat]

namespace Attest

/-- The fields that every attestation structure begins with, as they are written. -/
structure Heading where
  magic : UInt32
  type : UInt16
  qualifiedSigner : Bytes
  extraData : Bytes
  clock : UInt64
  resetCount : UInt32
  restartCount : UInt32
  /-- Whether the clock is safe: any number but zero says so. -/
  safe : UInt8
  firmwareVersion : UInt64
  qualifiedSigner_lt : qualifiedSigner.length < 65536
  extraData_lt : extraData.length < 65536

namespace Heading

variable (h : Heading) (attested : Attested)

/-- The bytes before the one that says whether the clock is safe. -/
def front : Bytes :=
  Bytes.ofNat 4 h.magic.toNat ++ Bytes.ofNat 2 h.type.toNat ++ sizedBytes h.qualifiedSigner ++
    sizedBytes h.extraData ++ Bytes.ofNat 8 h.clock.toNat ++ Bytes.ofNat 4 h.resetCount.toNat ++
    Bytes.ofNat 4 h.restartCount.toNat

/-- The bytes of the fields. -/
def bytes : Bytes :=
  h.front ++ h.safe :: Bytes.ofNat 8 h.firmwareVersion.toNat

/-- The structure that begins with the fields and attests this. -/
def attest : Attest :=
  ⟨h.magic, h.type, h.qualifiedSigner, h.extraData,
    ⟨h.clock, h.resetCount, h.restartCount, h.safe != 0⟩, h.firmwareVersion, attested⟩

/-- The same fields with 1 for a safe clock. -/
def normal : Heading :=
  { h with safe := if h.safe = 0 then 0 else 1 }

/-- The byte that says whether the clock is safe has a place that only two lengths decide on. -/
theorem length_front :
    h.front.length = 26 + h.qualifiedSigner.length + h.extraData.length := by
  simp only [front, sizedBytes, List.length_append, Bytes.length_ofNat]
  omega

/-- Any number but zero says the same of the clock. -/
theorem attest_normal : h.normal.attest attested = h.attest attested := by
  have hsafe : (h.normal.safe != 0) = (h.safe != 0) := by
    unfold normal
    by_cases hzero : h.safe = 0 <;> simp [hzero]
  unfold attest
  rw [hsafe]
  rfl

/-- A structure that is written again has 1 for a safe clock. -/
theorem encode_attest : (h.attest attested).encode = h.normal.bytes ++ attested.encode := by
  have hsafe : (if (h.attest attested).clockInfo.safe then 1 else 0) = h.normal.safe := by
    show (if h.safe != 0 then 1 else 0) = if h.safe = 0 then (0 : UInt8) else 1
    by_cases hzero : h.safe = 0 <;> simp [hzero]
  rw [encode, ClockInfo.encode, hsafe]
  simp only [bytes, List.append_assoc, List.cons_append, List.nil_append]
  simp only [front, List.append_assoc]
  rfl

/-- The fields are laid out as the ones of a structure, with a clock among them. -/
theorem bytes_append (rest : Bytes) :
    h.bytes ++ rest = Bytes.ofNat 4 h.magic.toNat ++ Bytes.ofNat 2 h.type.toNat ++
      sizedBytes h.qualifiedSigner ++ sizedBytes h.extraData ++
      (Bytes.ofNat 8 h.clock.toNat ++ Bytes.ofNat 4 h.resetCount.toNat ++
        Bytes.ofNat 4 h.restartCount.toNat ++ Bytes.ofNat 1 h.safe.toNat) ++
      Bytes.ofNat 8 h.firmwareVersion.toNat ++ rest := by
  have hbyte : Bytes.ofNat 1 h.safe.toNat = [h.safe] := by simp [Bytes.ofNat]
  simp only [bytes, front, hbyte, List.append_assoc, List.cons_append, List.nil_append]

end Heading

/-- A structure is laid out as its first fields and what it attests. -/
theorem encoding_iff {b : Bytes} {a : Attest} :
    Encoding b a ↔ ∃ (h : Heading) (rest : Bytes) (attested : Attested),
      AttestedEncoding h.type rest attested ∧ b = h.bytes ++ rest ∧ a = h.attest attested := by
  refine ⟨fun h => ?_, fun h => ?_⟩
  · rcases h with ⟨hsigner, hextraData, ⟨⟩, hattested⟩
    refine ⟨⟨_, _, _, _, _, _, _, _, _, hsigner, hextraData⟩, _, _, hattested, ?_, rfl⟩
    rw [Heading.bytes_append]
  · rcases h with ⟨h, rest, attested, hattested, rfl, rfl⟩
    rw [Heading.bytes_append]
    exact .intro h.qualifiedSigner_lt h.extraData_lt .intro hattested

/-- A name is a byte string from which two bytes can be split off. -/
theorem certifyEncoding_iff {b : Bytes} {info : CertifyInfo} :
    CertifyEncoding b info ↔ ∃ name qualifiedName : Bytes,
      2 ≤ name.length ∧ name.length < 65536 ∧ qualifiedName.length < 65536 ∧
        b = sizedBytes name ++ sizedBytes qualifiedName ∧ info = .ofName name qualifiedName := by
  refine ⟨fun h => ?_, fun h => ?_⟩
  · rcases h with ⟨hname, hqualifiedName⟩
    rename_i nameAlg nameDigest qualifiedName
    refine ⟨Bytes.ofNat 2 nameAlg.toNat ++ nameDigest, qualifiedName, ?_, ?_, hqualifiedName, rfl,
      (CertifyInfo.ofName_append ..).symm⟩
    · simp
    · simpa [Nat.add_comm] using hname
  · rcases h with ⟨name, qualifiedName, htwo, hname, hqualifiedName, rfl, rfl⟩
    obtain ⟨alg, digest, rfl, hlength⟩ := Bytes.exists_word (W := UInt16) (n := 2)
      (fun _ => UInt16.toNat_ofNat_of_lt') htwo
    rw [CertifyInfo.ofName_append]
    exact .intro (by omega) hqualifiedName

/-- The kind tells how the rest is laid out. -/
theorem attestedEncoding_iff {type : UInt16} {b : Bytes} {attested : Attested} :
    AttestedEncoding type b attested ↔
      (type = certifyType ∧ ∃ info, CertifyEncoding b info ∧ attested = .certify info) ∨
        (type ≠ certifyType ∧ attested = .other b) := by
  refine ⟨fun h => ?_, fun h => ?_⟩
  · cases h with
    | certify hcertify => exact .inl ⟨rfl, _, hcertify, rfl⟩
    | other hne => exact .inr ⟨hne, rfl⟩
  · rcases h with ⟨rfl, info, hcertify, rfl⟩ | ⟨hne, rfl⟩
    · exact .certify hcertify
    · exact .other hne

/-- What is laid out is written so. -/
theorem AttestedEncoding.eq_encode {type : UInt16} {b : Bytes} {attested : Attested}
    (h : AttestedEncoding type b attested) : b = attested.encode := by
  cases h with
  | certify hcertify =>
    cases hcertify
    rfl
  | other _ => rfl

section
variable {raw : Bytes} {a : Attest}

/-! ## Reading -/

/-- What certifies an object is read from its fields, its name and its qualified name. -/
theorem parse_certify_iff :
    parse raw = .ok a ∧ a.type = certifyType ↔
      ∃ (h : Heading) (name qualifiedName : Bytes), h.type = certifyType ∧
        2 ≤ name.length ∧ name.length < 65536 ∧ qualifiedName.length < 65536 ∧
        raw = h.bytes ++ sizedBytes name ++ sizedBytes qualifiedName ∧
        a = h.attest (.certify (.ofName name qualifiedName)) := by
  rw [parse_eq_ok_iff, encoding_iff]
  refine ⟨fun h => ?_, fun h => ?_⟩
  · rcases h with ⟨⟨h, rest, attested, hattested, rfl, rfl⟩, htype⟩
    rcases attestedEncoding_iff.1 hattested with ⟨-, info, hcertify, rfl⟩ | ⟨hne, -⟩
    · obtain ⟨name, qualifiedName, htwo, hname, hqualifiedName, rfl, rfl⟩ :=
        certifyEncoding_iff.1 hcertify
      exact ⟨h, name, qualifiedName, htype, htwo, hname, hqualifiedName,
        (List.append_assoc ..).symm, rfl⟩
    · exact absurd htype hne
  · rcases h with ⟨h, name, qualifiedName, htype, htwo, hname, hqualifiedName, rfl, rfl⟩
    have hcertify := certifyEncoding_iff.2
      ⟨name, qualifiedName, htwo, hname, hqualifiedName, rfl, rfl⟩
    have hattested := attestedEncoding_iff.2 (.inl ⟨htype, _, hcertify, rfl⟩)
    exact ⟨⟨h, _, _, hattested, List.append_assoc .., rfl⟩, htype⟩

/-- Of what attests something else, all that follows its fields is kept. -/
theorem parse_other_iff :
    parse raw = .ok a ∧ a.type ≠ certifyType ↔
      ∃ (h : Heading) (rest : Bytes), h.type ≠ certifyType ∧ raw = h.bytes ++ rest ∧
        a = h.attest (.other rest) := by
  rw [parse_eq_ok_iff, encoding_iff]
  refine ⟨fun h => ?_, fun h => ?_⟩
  · rcases h with ⟨⟨h, rest, attested, hattested, rfl, rfl⟩, hne⟩
    rcases attestedEncoding_iff.1 hattested with ⟨htype, -⟩ | ⟨-, rfl⟩
    · exact absurd htype hne
    · exact ⟨h, rest, hne, rfl, rfl⟩
  · rcases h with ⟨h, rest, hne, rfl, rfl⟩
    exact ⟨⟨h, rest, _, .other hne, rfl, rfl⟩, hne⟩

/-! ## Writing what was read -/

/-- What was read is written as it was, but for the byte that says whether the clock is safe. -/
theorem encode_of_parse (hparse : parse raw = .ok a) :
    ∃ (front back : Bytes) (safe : UInt8),
      front.length = 26 + a.qualifiedSigner.length + a.extraData.length ∧
        raw = front ++ safe :: back ∧ a.clockInfo.safe = (safe != 0) ∧
        a.encode = front ++ (if safe = 0 then 0 else 1) :: back := by
  obtain ⟨h, rest, attested, hattested, rfl, rfl⟩ := encoding_iff.1 (parse_eq_ok_iff.1 hparse)
  refine ⟨h.front, Bytes.ofNat 8 h.firmwareVersion.toNat ++ rest, h.safe, h.length_front, ?_, rfl,
    ?_⟩
  · rw [Heading.bytes, List.append_assoc, List.cons_append]
  · rw [Heading.encode_attest, ← hattested.eq_encode, Heading.bytes, List.append_assoc,
      List.cons_append]
    rfl

/-- What was read is read again from what is written for it. -/
theorem parse_encode (hparse : parse raw = .ok a) : parse a.encode = .ok a := by
  obtain ⟨h, rest, attested, hattested, rfl, rfl⟩ := encoding_iff.1 (parse_eq_ok_iff.1 hparse)
  rw [Heading.encode_attest, ← hattested.eq_encode, ← Heading.attest_normal]
  exact parse_eq_ok_iff.2 (encoding_iff.2 ⟨h.normal, rest, attested, hattested, rfl, rfl⟩)

end

/-- From which bytes an attestation structure is read and what it is, by its kind, and that it is
written as it was read up to the byte of a safe clock. Other bytes are malformed, and no
verification is left with a structure of the kind that certifies an object without one. -/
theorem parse_iff_written (raw : Bytes) :
    (∀ a, parse raw = .ok a ∧ a.type = certifyType ↔
      ∃ (h : Heading) (name qualifiedName : Bytes), h.type = certifyType ∧
        2 ≤ name.length ∧ name.length < 65536 ∧ qualifiedName.length < 65536 ∧
        raw = h.bytes ++ sizedBytes name ++ sizedBytes qualifiedName ∧
        a = h.attest (.certify (.ofName name qualifiedName))) ∧
    (∀ a, parse raw = .ok a ∧ a.type ≠ certifyType ↔
      ∃ (h : Heading) (rest : Bytes), h.type ≠ certifyType ∧ raw = h.bytes ++ rest ∧
        a = h.attest (.other rest)) ∧
    (∀ a, parse raw = .ok a →
      (∃ (front back : Bytes) (safe : UInt8),
        front.length = 26 + a.qualifiedSigner.length + a.extraData.length ∧
          raw = front ++ safe :: back ∧ a.clockInfo.safe = (safe != 0) ∧
          a.encode = front ++ (if safe = 0 then 0 else 1) :: back) ∧
      parse a.encode = .ok a ∧
      ((∃ info, a.attested = .certify info) ↔ a.type = certifyType)) ∧
    (∀ e, parse raw = .error e → e.IsMalformed) ∧
    ∀ config now r, (Validator.builtIn config now .tpm).validate r ≠
      .error (.structuralMismatch .notCertifyInfo) := by
  refine ⟨fun a => parse_certify_iff, fun a => parse_other_iff, fun a h => ⟨?_, ?_, ?_⟩,
    raises_parse raw, fun config now r => Validator.validate_ne_notCertifyInfo r⟩
  · exact encode_of_parse h
  · exact parse_encode h
  · exact certifies_iff h

/-- The first fields of a structure of the given kind, with a clock that is safe by a number of its
own. -/
def sampleHeading (type : UInt16) : Heading :=
  ⟨generatedMagic, type, [], [0xaa], 1, 2, 3, 7, 4, by decide, by decide⟩

/-- A structure that certifies an object, one of another kind, and no structure. -/
theorem parse_iff_written_samples :
    (parse ((sampleHeading certifyType).bytes ++ sizedBytes [0x00, 0x0b, 0x01] ++ sizedBytes []) =
        .ok ((sampleHeading certifyType).attest (.certify ⟨0x000b, [0x01], []⟩)) ∧
      parse ((sampleHeading certifyType).attest (.certify ⟨0x000b, [0x01], []⟩)).encode =
        .ok ((sampleHeading certifyType).attest (.certify ⟨0x000b, [0x01], []⟩))) ∧
    parse ((sampleHeading 0x8019).bytes ++ [0x01, 0x02]) =
      .ok ((sampleHeading 0x8019).attest (.other [0x01, 0x02])) ∧
    ∃ e, parse [] = .error e ∧ e.IsMalformed := by
  obtain ⟨hcertify, -, hwritten, -, -⟩ := parse_iff_written
    ((sampleHeading certifyType).bytes ++ sizedBytes [0x00, 0x0b, 0x01] ++ sizedBytes [])
  obtain ⟨-, hother, -⟩ := parse_iff_written ((sampleHeading 0x8019).bytes ++ [0x01, 0x02])
  obtain ⟨-, -, -, hmalformed, -⟩ := parse_iff_written []
  have hparse := ((hcertify _).2 ⟨sampleHeading certifyType, [0x00, 0x0b, 0x01], [], rfl, by decide,
    by decide, by decide, rfl, rfl⟩).1
  refine ⟨⟨hparse, (hwritten _ hparse).2.1⟩, ?_, _, rfl, hmalformed _ rfl⟩
  exact ((hother _).2 ⟨sampleHeading 0x8019, [0x01, 0x02], by decide, rfl, rfl⟩).1

end Attest

end Attestation.Tpm
