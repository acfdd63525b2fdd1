import Attestation.Proofs.Tpm.Cursor
import Attestation.Tpm.Attest

/-!
# The layout of attestation structures

`Attest.Encoding` says which bytes are an attestation structure and what it attests, field by field
and without a reader. `Attest.parse` accepts exactly these bytes (`parse_eq_ok_iff`). Of the clock
only its length matters for that (`clockEncoding_of_length`). Bytes after a structure are left over
if it certifies an object (`parse_append_of_certify`), and otherwise belong to the part that is not
decoded (`parse_append_of_other`).
-/

namespace Attestation.Tpm

open Read

namespace Attest

/-! ## Layout -/

/-- The bytes of a clock; any byte but zero says that it is safe. -/
inductive ClockEncoding : Bytes → ClockInfo → Prop
  | intro {clock : UInt64} {resetCount restartCount : UInt32} {safe : UInt8} :
    ClockEncoding (Bytes.ofNat 8 clock.toNat ++ Bytes.ofNat 4 resetCount.toNat ++
      Bytes.ofNat 4 restartCount.toNat ++ Bytes.ofNat 1 safe.toNat)
      ⟨clock, resetCount, restartCount, safe != 0⟩

/-- The bytes of a certified object. Its name is one byte string of identifier and digest. -/
inductive CertifyEncoding : Bytes → CertifyInfo → Prop
  | intro {nameAlg : UInt16} {nameDigest qualifiedName : Bytes} :
    nameDigest.length + 2 < 65536 → qualifiedName.length < 65536 →
    CertifyEncoding (sizedBytes (Bytes.ofNat 2 nameAlg.toNat ++ nameDigest) ++
      sizedBytes qualifiedName) ⟨nameAlg, nameDigest, qualifiedName⟩

/-- The bytes of what is attested, by its kind. Another kind than the one that is known here may
have any. -/
inductive AttestedEncoding : UInt16 → Bytes → Attested → Prop
  | certify {b : Bytes} {info : CertifyInfo} :
    CertifyEncoding b info → AttestedEncoding certifyType b (.certify info)
  | other {type : UInt16} {b : Bytes} : type ≠ certifyType → AttestedEncoding type b (.other b)

/-- The bytes of an attestation structure. -/
inductive Encoding : Bytes → Attest → Prop
  | intro {magic : UInt32} {type : UInt16} {qualifiedSigner extraData a b : Bytes}
      {clockInfo : ClockInfo} {firmwareVersion : UInt64} {attested : Attested} :
    qualifiedSigner.length < 65536 → extraData.length < 65536 → ClockEncoding a clockInfo →
    AttestedEncoding type b attested →
    Encoding (Bytes.ofNat 4 magic.toNat ++ Bytes.ofNat 2 type.toNat ++ sizedBytes qualifiedSigner ++
      sizedBytes extraData ++ a ++ Bytes.ofNat 8 firmwareVersion.toNat ++ b)
      ⟨magic, type, qualifiedSigner, extraData, clockInfo, firmwareVersion, attested⟩

/-! ## Clock -/

/-- The state of the clock takes 17 bytes. -/
theorem length_clockEncoding {b : Bytes} {info : ClockInfo} (h : ClockEncoding b info) :
    b.length = 17 := by
  obtain ⟨⟩ := h
  simp

/-- Seventeen bytes are a clock, whatever they are. -/
theorem clockEncoding_of_length {b : Bytes} (h : b.length = 17) : ∃ info, ClockEncoding b info := by
  obtain ⟨clock, b₁, rfl, h₁⟩ := Bytes.exists_word (W := UInt64) (n := 8)
    (fun _ => UInt64.toNat_ofNat_of_lt') (b := b) (by omega)
  obtain ⟨resetCount, b₂, rfl, h₂⟩ := Bytes.exists_word (W := UInt32) (n := 4)
    (fun _ => UInt32.toNat_ofNat_of_lt') (b := b₁) (by omega)
  obtain ⟨restartCount, b₃, rfl, h₃⟩ := Bytes.exists_word (W := UInt32) (n := 4)
    (fun _ => UInt32.toNat_ofNat_of_lt') (b := b₂) (by omega)
  obtain ⟨safe, b₄, rfl, h₄⟩ := Bytes.exists_word (W := UInt8) (n := 1)
    (fun _ => UInt8.toNat_ofNat_of_lt') (b := b₃) (by omega)
  obtain rfl : b₄ = [] := List.eq_nil_of_length_eq_zero (by omega)
  refine ⟨⟨clock, resetCount, restartCount, safe != 0⟩, ?_⟩
  rw [List.append_nil, ← List.append_assoc, ← List.append_assoc]
  exact .intro

/-- The state of the clock is read as it is laid out. -/
theorem follows_readClockInfo : Follows readClockInfo ClockEncoding := by
  intro c info c'
  refine ⟨fun h => ?_, fun h => ?_⟩
  · obtain ⟨clock, c₁, hclock, h₁⟩ := Read.bind_eq_ok.1 h
    obtain ⟨resetCount, c₂, hresetCount, h₂⟩ := Read.bind_eq_ok.1 h₁
    obtain ⟨restartCount, c₃, hrestartCount, h₃⟩ := Read.bind_eq_ok.1 h₂
    obtain ⟨safe, c₄, hsafe, h₄⟩ := Read.bind_eq_ok.1 h₃
    obtain ⟨rfl, rfl⟩ := Read.pure_eq_ok.1 h₄
    have hpasses := (((word64_eq_ok.1 hclock).trans (word32_eq_ok.1 hresetCount)).trans
      (word32_eq_ok.1 hrestartCount)).trans (word8_eq_ok.1 hsafe)
    exact ⟨_, .intro, hpasses⟩
  · rcases h with ⟨_, ⟨⟩, hc⟩
    obtain ⟨c₃, hc, hsafe⟩ := hc.split
    obtain ⟨c₂, hc, hrestartCount⟩ := hc.split
    obtain ⟨c₁, hclock, hresetCount⟩ := hc.split
    refine Read.bind_eq_ok.2 ⟨_, _, word64_eq_ok.2 hclock, ?_⟩
    refine Read.bind_eq_ok.2 ⟨_, _, word32_eq_ok.2 hresetCount, ?_⟩
    refine Read.bind_eq_ok.2 ⟨_, _, word32_eq_ok.2 hrestartCount, ?_⟩
    refine Read.bind_eq_ok.2 ⟨_, _, word8_eq_ok.2 hsafe, ?_⟩
    exact Read.pure_eq_ok.2 ⟨rfl, rfl⟩

/-! ## Certified object -/

/-- A name is split after the two bytes of its identifier. -/
theorem splitName_eq_ok {name digest : Bytes} {alg : UInt16} {c c' : Cursor} :
    splitName name c = .ok (alg, digest) c' ↔
      name = Bytes.ofNat 2 alg.toNat ++ digest ∧ c' = c := by
  unfold splitName
  refine ⟨fun h => ?_, fun h => ?_⟩
  · cases hsplit : name.splitAt? 2 with
    | none =>
      rw [hsplit] at h
      cases h
    | some parts =>
      obtain ⟨front, rest⟩ := parts
      rw [hsplit] at h
      obtain ⟨rfl, hlength⟩ := Bytes.splitAt?_eq_some hsplit
      obtain ⟨heq, rfl⟩ := Read.pure_eq_ok.1 h
      cases heq
      have hlt := front.toNat_lt
      rw [hlength] at hlt
      rw [UInt16.toNat_ofNat_of_lt' hlt, ← hlength, Bytes.ofNat_toNat]
      exact ⟨rfl, rfl⟩
  · rcases h with ⟨rfl, rfl⟩
    have hsplit := Bytes.splitAt?_append (Bytes.ofNat 2 alg.toNat) digest
    rw [Bytes.length_ofNat] at hsplit
    rw [hsplit]
    refine Read.pure_eq_ok.2 ⟨?_, rfl⟩
    rw [Bytes.toNat_ofNat alg.toNat_lt, UInt16.ofNat_toNat]

/-- A certified object is read up to the end of the structure. -/
theorem readCertifyInfo_eq_ok {info : CertifyInfo} {c c' : Cursor} :
    readCertifyInfo c = .ok info c' ↔
      c'.rest = [] ∧ ∃ b, CertifyEncoding b info ∧ c.Passes b c' := by
  refine ⟨fun h => ?_, fun h => ?_⟩
  · obtain ⟨name, c₁, hname, h₁⟩ := Read.bind_eq_ok.1 h
    obtain ⟨⟨nameAlg, nameDigest⟩, c₂, hsplit, h₂⟩ := Read.bind_eq_ok.1 h₁
    obtain ⟨qualifiedName, c₃, hqualifiedName, h₃⟩ := Read.bind_eq_ok.1 h₂
    obtain ⟨_, c₄, hfinish, h₄⟩ := Read.bind_eq_ok.1 h₃
    obtain ⟨rfl, rfl⟩ := Read.pure_eq_ok.1 h₄
    obtain ⟨hend, rfl⟩ := finish_eq_ok.1 hfinish
    obtain ⟨rfl, rfl⟩ := splitName_eq_ok.1 hsplit
    obtain ⟨hnameLength, hc⟩ := sized_eq_ok.1 hname
    obtain ⟨hlength, hc'⟩ := sized_eq_ok.1 hqualifiedName
    rw [List.length_append, Bytes.length_ofNat, Nat.add_comm] at hnameLength
    exact ⟨hend, _, .intro hnameLength hlength, hc.trans hc'⟩
  · rcases h with ⟨hend, _, ⟨hnameLength, hlength⟩, hc⟩
    obtain ⟨c₁, hname, hqualifiedName⟩ := hc.split
    refine Read.bind_eq_ok.2 ⟨_, _, sized_eq_ok.2 ⟨?_, hname⟩,
      Read.bind_eq_ok.2 ⟨_, _, splitName_eq_ok.2 ⟨rfl, rfl⟩,
      Read.bind_eq_ok.2 ⟨_, _, sized_eq_ok.2 ⟨hlength, hqualifiedName⟩,
      Read.bind_eq_ok.2 ⟨(), _, finish_eq_ok.2 ⟨hend, rfl⟩, Read.pure_eq_ok.2 ⟨rfl, rfl⟩⟩⟩⟩⟩
    rw [List.length_append, Bytes.length_ofNat]
    omega

/-- What is attested is read up to the end of the structure, of whatever kind it is. -/
theorem readAttested_eq_ok {type : UInt16} {attested : Attested} {c c' : Cursor} :
    readAttested type c = .ok attested c' ↔
      c'.rest = [] ∧ ∃ b, AttestedEncoding type b attested ∧ c.Passes b c' := by
  unfold readAttested
  split
  · rename_i htype
    subst htype
    refine ⟨fun h => ?_, fun h => ?_⟩
    · obtain ⟨info, c₁, hinfo, hpure⟩ := Read.bind_eq_ok.1 h
      obtain ⟨rfl, rfl⟩ := Read.pure_eq_ok.1 hpure
      obtain ⟨hend, b, hb, hc⟩ := readCertifyInfo_eq_ok.1 hinfo
      exact ⟨hend, b, .certify hb, hc⟩
    · rcases h with ⟨hend, b, hb, hc⟩
      -- The type becomes a variable again, so that the two layouts can be told apart.
      generalize htype : certifyType = type at hb
      cases hb with
      | certify hb =>
        exact Read.bind_eq_ok.2 ⟨_, _, readCertifyInfo_eq_ok.2 ⟨hend, b, hb, hc⟩,
          Read.pure_eq_ok.2 ⟨rfl, rfl⟩⟩
      | other hne => exact absurd htype.symm hne
  · rename_i hne
    refine ⟨fun h => ?_, fun h => ?_⟩
    · obtain ⟨b, c₁, hb, hpure⟩ := Read.bind_eq_ok.1 h
      obtain ⟨rfl, rfl⟩ := Read.pure_eq_ok.1 hpure
      obtain ⟨hc, hend⟩ := remainder_eq_ok.1 hb
      exact ⟨hend, b, .other hne, hc⟩
    · rcases h with ⟨hend, b, hb, hc⟩
      cases hb with
      | certify _ => exact absurd rfl hne
      | other _ =>
        exact Read.bind_eq_ok.2 ⟨_, _, remainder_eq_ok.2 ⟨hc, hend⟩,
          Read.pure_eq_ok.2 ⟨rfl, rfl⟩⟩

/-! ## The whole structure -/

/-- The bytes that decode to a structure are the ones of its layout, to their end. -/
theorem parse_eq_ok_iff {b : Bytes} {attest : Attest} :
    parse b = .ok attest ↔ Encoding b attest := by
  rw [parse, Read.parse_eq_ok]
  refine ⟨fun h => ?_, fun h => ?_⟩
  · rcases h with ⟨c', h⟩
    obtain ⟨magic, c₁, hmagic, h₁⟩ := Read.bind_eq_ok.1 h
    obtain ⟨type, c₂, htype, h₂⟩ := Read.bind_eq_ok.1 h₁
    obtain ⟨qualifiedSigner, c₃, hsigner, h₃⟩ := Read.bind_eq_ok.1 h₂
    obtain ⟨extraData, c₄, hextraData, h₄⟩ := Read.bind_eq_ok.1 h₃
    obtain ⟨clockInfo, c₅, hclockInfo, h₅⟩ := Read.bind_eq_ok.1 h₄
    obtain ⟨firmwareVersion, c₆, hfirmware, h₆⟩ := Read.bind_eq_ok.1 h₅
    obtain ⟨attested, c₇, hattested, h₇⟩ := Read.bind_eq_ok.1 h₆
    obtain ⟨rfl, rfl⟩ := Read.pure_eq_ok.1 h₇
    obtain ⟨hsignerLength, hcs⟩ := sized_eq_ok.1 hsigner
    obtain ⟨hextraLength, hce⟩ := sized_eq_ok.1 hextraData
    obtain ⟨a, ha, hca⟩ := (follows_readClockInfo _ _ _).1 hclockInfo
    obtain ⟨hend, b', hb, hcb⟩ := readAttested_eq_ok.1 hattested
    -- What the reads pass one by one is all of the bytes, in this order.
    have hpasses := ((((((word32_eq_ok.1 hmagic).trans (word16_eq_ok.1 htype)).trans hcs).trans
      hce).trans hca).trans (word64_eq_ok.1 hfirmware)).trans hcb
    obtain ⟨rfl, -⟩ := Cursor.Passes.start_iff.1 hpasses
    rw [hend, List.append_nil]
    exact .intro hsignerLength hextraLength ha hb
  · obtain ⟨c', hend, hwhole⟩ := Cursor.Passes.whole b
    refine ⟨c', ?_⟩
    rcases h with ⟨hsignerLength, hextraLength, ha, hb⟩
    obtain ⟨c₆, hc, hattested⟩ := hwhole.split
    obtain ⟨c₅, hc, hfirmware⟩ := hc.split
    obtain ⟨c₄, hc, hclockInfo⟩ := hc.split
    obtain ⟨c₃, hc, hextraData⟩ := hc.split
    obtain ⟨c₂, hc, hsigner⟩ := hc.split
    obtain ⟨c₁, hmagic, htype⟩ := hc.split
    refine Read.bind_eq_ok.2 ⟨_, _, word32_eq_ok.2 hmagic, ?_⟩
    refine Read.bind_eq_ok.2 ⟨_, _, word16_eq_ok.2 htype, ?_⟩
    refine Read.bind_eq_ok.2 ⟨_, _, sized_eq_ok.2 ⟨hsignerLength, hsigner⟩, ?_⟩
    refine Read.bind_eq_ok.2 ⟨_, _, sized_eq_ok.2 ⟨hextraLength, hextraData⟩, ?_⟩
    refine Read.bind_eq_ok.2 ⟨_, _, (follows_readClockInfo _ _ _).2 ⟨_, ha, hclockInfo⟩, ?_⟩
    refine Read.bind_eq_ok.2 ⟨_, _, word64_eq_ok.2 hfirmware, ?_⟩
    refine Read.bind_eq_ok.2 ⟨_, _, readAttested_eq_ok.2 ⟨hend, _, hb, hattested⟩, ?_⟩
    exact Read.pure_eq_ok.2 ⟨rfl, rfl⟩

/-- Exactly the structures of the kind that certifies an object certify one. -/
theorem certifies_iff {b : Bytes} {attest : Attest} (h : parse b = .ok attest) :
    (∃ info, attest.attested = .certify info) ↔ attest.type = certifyType := by
  obtain ⟨-, -, -, hattested⟩ := parse_eq_ok_iff.1 h
  cases hattested with
  | certify _ => exact iff_of_true ⟨_, rfl⟩ rfl
  | other hne =>
    refine iff_of_false ?_ hne
    rintro ⟨_, ⟨⟩⟩

/-! ## Bytes after a structure -/

/-- The certified object ends with its qualified name, so bytes after it are left over. -/
theorem readCertifyInfo_extend {info : CertifyInfo} {c c' : Cursor}
    (h : readCertifyInfo c = .ok info c') {t : Bytes} (ht : t ≠ []) :
    readCertifyInfo (c.extend t) =
      .error (.malformedInput (.trailing t.length "TPMS_ATTEST")) (c'.extend t) := by
  obtain ⟨name, c₁, hname, h₁⟩ := Read.bind_eq_ok.1 h
  obtain ⟨⟨nameAlg, nameDigest⟩, c₂, hsplit, h₂⟩ := Read.bind_eq_ok.1 h₁
  obtain ⟨qualifiedName, c₃, hqualifiedName, h₃⟩ := Read.bind_eq_ok.1 h₂
  obtain ⟨_, c₄, hfinish, h₄⟩ := Read.bind_eq_ok.1 h₃
  obtain ⟨-, rfl⟩ := Read.pure_eq_ok.1 h₄
  obtain ⟨hend, rfl⟩ := finish_eq_ok.1 hfinish
  obtain ⟨heq, rfl⟩ := splitName_eq_ok.1 hsplit
  rw [readCertifyInfo, bind_of_eq_ok (isLocal_sized _ hname t),
    bind_of_eq_ok (splitName_eq_ok.2 ⟨heq, rfl⟩)]
  dsimp only
  rw [bind_of_eq_ok (isLocal_sized _ hqualifiedName t)]
  exact bind_of_eq_error (finish_extend hend ht)

/-- A structure that certifies an object ends with it, so bytes after it are left over. -/
theorem parse_append_of_certify {b : Bytes} {attest : Attest} (h : parse b = .ok attest)
    (hcertify : attest.type = certifyType) {t : Bytes} (ht : t ≠ []) :
    parse (b ++ t) = .error (.malformedInput (.trailing t.length "TPMS_ATTEST")) := by
  obtain ⟨c', h⟩ := Read.parse_eq_ok.1 h
  obtain ⟨magic, c₁, hmagic, h₁⟩ := Read.bind_eq_ok.1 h
  obtain ⟨type, c₂, htype, h₂⟩ := Read.bind_eq_ok.1 h₁
  obtain ⟨qualifiedSigner, c₃, hsigner, h₃⟩ := Read.bind_eq_ok.1 h₂
  obtain ⟨extraData, c₄, hextraData, h₄⟩ := Read.bind_eq_ok.1 h₃
  obtain ⟨clockInfo, c₅, hclockInfo, h₅⟩ := Read.bind_eq_ok.1 h₄
  obtain ⟨firmwareVersion, c₆, hfirmware, h₆⟩ := Read.bind_eq_ok.1 h₅
  obtain ⟨attested, c₇, hattested, h₇⟩ := Read.bind_eq_ok.1 h₆
  obtain ⟨rfl, rfl⟩ := Read.pure_eq_ok.1 h₇
  obtain rfl : type = certifyType := hcertify
  obtain ⟨info, c₈, hinfo, hpure⟩ := Read.bind_eq_ok.1 hattested
  obtain ⟨-, rfl⟩ := Read.pure_eq_ok.1 hpure
  have hread : read (.start (b ++ t)) =
      .error (.malformedInput (.trailing t.length "TPMS_ATTEST")) (c₈.extend t) := by
    rw [Cursor.start_append, read, bind_of_eq_ok (isLocal_word32 _ hmagic t),
      bind_of_eq_ok (isLocal_word16 _ htype t), bind_of_eq_ok (isLocal_sized _ hsigner t),
      bind_of_eq_ok (isLocal_sized _ hextraData t),
      bind_of_eq_ok (follows_readClockInfo.isLocal hclockInfo t),
      bind_of_eq_ok (isLocal_word64 _ hfirmware t)]
    exact bind_of_eq_error (bind_of_eq_error (readCertifyInfo_extend hinfo ht))
  rw [parse, Read.parse, hread]

/-- What is attested in another kind of structure is all that follows, so it takes the bytes after
it. -/
theorem parse_append_of_other {b : Bytes} {attest : Attest} (h : parse b = .ok attest)
    (hother : attest.type ≠ certifyType) :
    ∃ rest, attest.attested = .other rest ∧
      ∀ t, parse (b ++ t) = .ok { attest with attested := .other (rest ++ t) } := by
  obtain ⟨hsigner, hextraData, hclock, hattested⟩ := parse_eq_ok_iff.1 h
  cases hattested with
  | certify _ => exact absurd rfl hother
  | other hne =>
    refine ⟨_, rfl, fun t => parse_eq_ok_iff.2 ?_⟩
    rw [List.append_assoc]
    exact .intro hsigner hextraData hclock (.other hne)

/-! ## Failure -/

/-- The state of a clock that is not there is malformed input. -/
theorem raises_readClockInfo : RaisesMalformed readClockInfo := by
  refine (RaisesMalformed.word64 _).bind fun _ => ?_
  refine (RaisesMalformed.word32 _).bind fun _ => ?_
  refine (RaisesMalformed.word32 _).bind fun _ => ?_
  exact (RaisesMalformed.word8 _).bind fun _ => .pure _

/-- A name that is too short for its identifier is malformed input. -/
theorem raises_splitName (name : Bytes) : RaisesMalformed (splitName name) := by
  intro c e c' h
  unfold splitName at h
  cases hsplit : name.splitAt? 2 with
  | none =>
    rw [hsplit] at h
    cases h
    exact .intro _
  | some parts =>
    rw [hsplit] at h
    cases h

/-- What is attested is refused as malformed input. -/
theorem raises_readAttested (type : UInt16) : RaisesMalformed (readAttested type) := by
  unfold readAttested
  split
  · refine .bind ?_ fun _ => .pure _
    refine (RaisesMalformed.sized _).bind fun name => ?_
    refine (raises_splitName name).bind fun _ => ?_
    refine (RaisesMalformed.sized _).bind fun _ => ?_
    exact (RaisesMalformed.finish _).bind fun _ => .pure _
  · exact RaisesMalformed.remainder.bind fun _ => .pure _

/-- Bytes that are no attestation structure are malformed. -/
theorem raises_parse (b : Bytes) : Raises Error.IsMalformed (parse b) := by
  refine RaisesMalformed.parse ?_ b
  refine (RaisesMalformed.word32 _).bind fun _ => ?_
  refine (RaisesMalformed.word16 _).bind fun type => ?_
  refine (RaisesMalformed.sized _).bind fun _ => ?_
  refine (RaisesMalformed.sized _).bind fun _ => ?_
  refine raises_readClockInfo.bind fun _ => ?_
  refine (RaisesMalformed.word64 _).bind fun _ => ?_
  exact (raises_readAttested type).bind fun _ => .pure _

end Attest

end Attestation.Tpm
