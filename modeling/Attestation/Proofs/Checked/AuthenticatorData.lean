import Attestation.Checked.AuthenticatorData
import Attestation.Proofs.AuthenticatorData.Grammar

/-!
# Authenticator data are read in range

Decoding by offsets gives the result of decoding by readers, section by section, so it is never
stopped (`AuthenticatorData.checkedParse_eq`). After a length was checked the bytes are a header, or
the beginning of a credential, and what follows it; so each access finds the part that the reader
takes.
-/

namespace Attestation.AuthenticatorData

open Cbor (Value)

/-! ## Header -/

/-- Bytes that are long enough begin with a header. -/
theorem exists_header {b : Bytes} (h : Checked.headerLength ≤ b.length) :
    ∃ (header : Header) (rest : Bytes), header.rpIdHash.length = 32 ∧
      b = header.rpIdHash ++ [header.flags] ++ Bytes.ofNat 4 header.signCount.toNat ++ rest := by
  have h : 32 + 5 ≤ b.length := h
  obtain ⟨rpIdHash, b, rfl, hhash⟩ := Bytes.exists_append_of_le (Nat.le_of_add_right_le h)
  rw [List.length_append, hhash, Nat.add_le_add_iff_left] at h
  obtain ⟨flags, b, rfl⟩ := List.exists_cons_of_length_pos (Nat.zero_lt_of_lt h)
  obtain ⟨signCount, rest, rfl, -⟩ :=
    Bytes.exists_word (fun m hm => UInt32.toNat_ofNat_of_lt' hm) (Nat.le_of_succ_le_succ h)
  exact ⟨⟨rpIdHash, flags, signCount⟩, rest, hhash, by simp⟩

/-- The accesses find the parts of a header. -/
theorem checkedReadHeader_append {header : Header} (h : header.rpIdHash.length = 32)
    (rest : Bytes) :
    Checked.readHeader (header.rpIdHash ++ [header.flags] ++
      Bytes.ofNat 4 header.signCount.toNat ++ rest) = pure (header, rest) := by
  have hfront : (header.rpIdHash ++ [header.flags] ++
      Bytes.ofNat 4 header.signCount.toNat).length = Checked.headerLength := by
    simp [h, Checked.headerLength, rpIdHashLength]
  generalize hb : header.rpIdHash ++ [header.flags] ++ Bytes.ofNat 4 header.signCount.toNat ++
    rest = b
  have hle : Checked.headerLength ≤ b.length := by
    rw [← hb, List.length_append, hfront]
    exact Nat.le_add_right _ _
  have hhash : Checked.sliceTo b 32 = .ok header.rpIdHash := by
    rw [← hb, List.append_assoc, List.append_assoc]
    exact Checked.sliceTo_append h
  have hflags : Checked.index b 32 = .ok header.flags := by
    rw [← hb, List.append_assoc, List.append_assoc]
    exact Checked.index_append h
  have hcount : Checked.indices b (32 + 1) 4 = .ok (Bytes.ofNat 4 header.signCount.toNat) := by
    rw [← hb, List.append_assoc]
    exact Checked.indices_append (by simp [h]) (Bytes.length_ofNat ..)
  have hrest : Checked.sliceFrom b Checked.headerLength = .ok rest := by
    rw [← hb]
    exact Checked.sliceFrom_append hfront
  have hword : UInt32.ofNat (Bytes.ofNat 4 header.signCount.toNat).toNat = header.signCount := by
    rw [Bytes.toNat_ofNat header.signCount.toNat_lt, UInt32.ofNat_toNat]
  rw [Checked.readHeader, if_neg (Nat.not_lt_of_le hle), rpIdHashLength,
    Checked.liftM_eq_pure hhash, pure_bind, Checked.liftM_eq_pure (Checked.copy_of_length h),
    pure_bind, Checked.liftM_eq_pure hflags, pure_bind, Checked.liftM_eq_pure hcount, pure_bind,
    Checked.liftM_eq_pure hrest, pure_bind, hword]

/-- The header by offsets is the header by a reader. -/
theorem checkedReadHeader_eq (b : Bytes) :
    Checked.readHeader b = Checked.ofResult
      (orError (.malformedInput (.headerLength b.length)) (Header.read b)) := by
  cases hread : Header.read b with
  | none =>
    have hlength : b.length < Checked.headerLength := Nat.lt_of_not_le fun hle => by
      obtain ⟨header, rest, hb⟩ := exists_header hle
      rw [readHeader_eq_some_iff.2 hb] at hread
      cases hread
    rw [Checked.readHeader, if_pos hlength]
    rfl
  | some x =>
    obtain ⟨hhash, rfl⟩ := readHeader_eq_some_iff.1 hread
    exact checkedReadHeader_append hhash x.2

/-! ## Credential -/

/-- Bytes that are long enough begin with the identifier of a model and a length. -/
theorem exists_model {b : Bytes} (h : 16 + 2 ≤ b.length) :
    ∃ aaguid length rest, aaguid.length = 16 ∧ length ≤ 65535 ∧
      b = aaguid ++ Bytes.ofNat 2 length ++ rest := by
  obtain ⟨aaguid, b, rfl, haaguid⟩ := Bytes.exists_append_of_le (Nat.le_of_add_right_le h)
  rw [List.length_append, haaguid, Nat.add_le_add_iff_left] at h
  obtain ⟨length, rest, rfl, -⟩ := Bytes.exists_word (fun m hm => UInt16.toNat_ofNat_of_lt' hm) h
  exact ⟨aaguid, length.toNat, rest, haaguid, Nat.le_of_lt_succ length.toNat_lt,
    (List.append_assoc ..).symm⟩

/-- The accesses find the identifier of a model and a length. -/
theorem checkedReadModel_append {aaguid : Bytes} (haaguid : aaguid.length = 16) {length : Nat}
    (hlength : length ≤ 65535) (rest : Bytes) :
    Checked.readModel (aaguid ++ Bytes.ofNat 2 length ++ rest) = pure ((aaguid, length), rest) := by
  have hfront : (aaguid ++ Bytes.ofNat 2 length).length = 16 + 2 := by simp [haaguid]
  generalize hb : aaguid ++ Bytes.ofNat 2 length ++ rest = b
  have hle : 16 + 2 ≤ b.length := by
    rw [← hb, List.length_append, hfront]
    exact Nat.le_add_right _ _
  have hmodel : Checked.sliceTo b 16 = .ok aaguid := by
    rw [← hb, List.append_assoc]
    exact Checked.sliceTo_append haaguid
  have hslice : Checked.modelOfSlice aaguid = pure aaguid := if_pos haaguid
  have hdigits : Checked.indices b 16 2 = .ok (Bytes.ofNat 2 length) := by
    rw [← hb, List.append_assoc]
    exact Checked.indices_append haaguid (Bytes.length_ofNat ..)
  have hrest : Checked.sliceFrom b (16 + 2) = .ok rest := by
    rw [← hb]
    exact Checked.sliceFrom_append hfront
  have hnumber : (Bytes.ofNat 2 length).toNat = length :=
    Bytes.toNat_ofNat (Nat.lt_succ_of_le hlength)
  rw [Checked.readModel, aaguidLength, if_neg (Nat.not_lt_of_le hle), Checked.liftM_eq_pure hmodel,
    pure_bind, hslice, pure_bind, Checked.liftM_eq_pure hdigits, pure_bind,
    Checked.liftM_eq_pure hrest, pure_bind, hnumber]

/-- The slice always has the length of an identifier of a model. -/
theorem checkedReadModel_eq (b : Bytes) :
    Checked.readModel b =
      Checked.ofResult (orError (.malformedInput .credentialLength) (readModel b)) := by
  cases hread : readModel b with
  | none =>
    have hlength : b.length < 16 + 2 := Nat.lt_of_not_le fun hle => by
      obtain ⟨aaguid, length, rest, hb⟩ := exists_model hle
      rw [readModel_eq_some_iff.2 hb] at hread
      cases hread
    rw [Checked.readModel, aaguidLength, if_pos hlength]
    rfl
  | some x =>
    obtain ⟨⟨aaguid, length⟩, rest⟩ := x
    obtain ⟨haaguid, hlength, rfl⟩ := readModel_eq_some_iff.1 hread
    exact checkedReadModel_append haaguid hlength rest

/-- The identifier of a credential is cut off after its length was compared, so that the cut is in
range. -/
theorem checkedReadId_eq (length : Nat) (b : Bytes) :
    Checked.readId length b = Checked.ofResult
      (orError (.malformedInput (.credentialIdLength length)) (b.splitAt? length)) := by
  cases hsplit : b.splitAt? length with
  | none =>
    rw [Checked.readId, if_pos (Bytes.splitAt?_eq_none.1 hsplit)]
    rfl
  | some x =>
    obtain ⟨rfl, hlength⟩ := Bytes.splitAt?_eq_some hsplit
    rw [Checked.readId, if_neg (by simp [← hlength]),
      Checked.liftM_eq_pure (Checked.sliceTo_append hlength), pure_bind,
      Checked.liftM_eq_pure (Checked.sliceFrom_append hlength), pure_bind]
    rfl

/-- The steps of a credential, one after the other. -/
theorem readCredential_eq_bind (b : Bytes) :
    readCredential b = (do
      let ((aaguid, length), b) ← orError (.malformedInput .credentialLength) (readModel b)
      let (id, b) ← orError (.malformedInput (.credentialIdLength length)) (b.splitAt? length)
      let (item, b) ← orError (.malformedInput .keyEncoding) (Value.read b)
      let key ← CredentialKey.ofCbor item
      return (⟨aaguid, id, key⟩, b)) := by
  unfold readCredential
  cases readModel b with
  | none => rfl
  | some x =>
    obtain ⟨⟨aaguid, length⟩, b⟩ := x
    dsimp only [orError, bind, Except.bind]
    cases b.splitAt? length with
    | none => rfl
    | some x =>
      obtain ⟨id, b⟩ := x
      dsimp only
      cases Value.read b <;> rfl

/-- A credential is read without a failure of the program. -/
theorem checkedReadCredential_eq (b : Bytes) :
    Checked.readCredential b = Checked.ofResult (readCredential b) := by
  rw [readCredential_eq_bind]
  refine Checked.bind_eq_ofResult (checkedReadModel_eq b) fun ((aaguid, length), b) => ?_
  refine Checked.bind_eq_ofResult (checkedReadId_eq length b) fun (id, b) => ?_
  dsimp only
  cases Value.read b with
  | none => rfl
  | some x => exact Checked.bind_eq_ofResult rfl fun key => rfl

/-! ## The whole structure -/

/-- A part that may be missing is read without a failure if the part is. -/
theorem checkedReadSection_eq {α : Type} {checked : Bytes → CheckedResult (α × Bytes)}
    {read : Bytes → Result (α × Bytes)} (h : ∀ b, checked b = Checked.ofResult (read b))
    (present : Bool) (b : Bytes) :
    Checked.readSection present checked b = Checked.ofResult (readSection present read b) := by
  cases present with
  | false => rfl
  | true => exact Checked.bind_eq_ofResult (h b) fun _ => rfl

/-- The steps of authenticator data, one after the other. -/
theorem parse_eq_bind (b : Bytes) :
    parse b = (do
      let (header, b) ← orError (.malformedInput (.headerLength b.length)) (Header.read b)
      let (credential, b) ← readSection (hasFlag header.flags credentialFlag) readCredential b
      let (extensions, b) ← readSection (hasFlag header.flags extensionsFlag) readExtensions b
      if b = [] then
        return ⟨header.rpIdHash, header.flags, header.signCount, credential, extensions⟩
      else .error (.malformedInput (.trailing b.length "authenticator data"))) := by
  unfold parse
  cases Header.read b <;> rfl

/-- Authenticator data are decoded in range, as they are by readers. -/
theorem checkedParse_eq (b : Bytes) : Checked.parse b = Checked.ofResult (parse b) := by
  rw [parse_eq_bind]
  refine Checked.bind_eq_ofResult (checkedReadHeader_eq b) fun x => ?_
  obtain ⟨header, b⟩ := x
  refine Checked.bind_eq_ofResult (checkedReadSection_eq checkedReadCredential_eq _ b) fun x => ?_
  obtain ⟨credential, b⟩ := x
  refine Checked.bind_eq_ofResult (checkedReadSection_eq (fun _ => rfl) _ b) fun x => ?_
  obtain ⟨extensions, b⟩ := x
  dsimp only
  split <;> rfl

end Attestation.AuthenticatorData
