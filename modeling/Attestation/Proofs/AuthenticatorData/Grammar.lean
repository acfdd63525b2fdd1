import Attestation.AuthenticatorData
import Attestation.Proofs.Cbor.SelfDelimiting
import Attestation.Proofs.CredentialKey.Decoding
import Attestation.Proofs.Number

/-!
# The grammar of authenticator data

The relation `AuthenticatorData.Encoding` says which bytes are authenticator data and what they
mean, section by section and without a reader: hash, flags and counter, then an attested credential
and extension outputs as the two flags tell, and nothing after them. `AuthenticatorData.parse`
accepts exactly these bytes (`parse_iff_encoding`). It refuses others as malformed, except where a
credential key that decodes as an item is of an unsupported kind (`UnsupportedKey`).
-/

namespace Attestation

open Cbor (Value)

/-- The bytes are one item, to their end. -/
def Cbor.Value.IsItem (b : Bytes) (v : Value) : Prop :=
  Value.read b = some (v, [])

namespace Cbor.Value

/-- An item is read from its bytes, whatever follows. -/
theorem IsItem.read_append {k : Bytes} {v : Value} (h : IsItem k v) (rest : Bytes) :
    Value.read (k ++ rest) = some (v, rest) :=
  selfDelimiting_read.takes_iff.2 h rest

/-- What is read is the item of the bytes that are taken. -/
theorem read_eq_some_iff {b rest : Bytes} {v : Value} :
    Value.read b = some (v, rest) ↔ ∃ k, b = k ++ rest ∧ IsItem k v := by
  refine ⟨fun h => ?_, fun h => ?_⟩
  · obtain ⟨k, rfl, hk⟩ := selfDelimiting_read _ _ _ h
    exact ⟨k, rfl, hk.read_eq⟩
  · rcases h with ⟨k, rfl, hk⟩
    exact hk.read_append rest

end Cbor.Value

namespace AuthenticatorData

open Cbor.Value (IsItem)
open Error (OfDecoding)

/-! ## Grammar -/

/-- The bytes of an attested credential: the identifier of the model, the identifier of the
credential after its length in two bytes, and the key as one item. -/
inductive CredentialEncoding : Bytes → AttestedCredential → Prop
  | intro {aaguid id k : Bytes} {item : Value} {key : CredentialKey} :
    aaguid.length = 16 → id.length ≤ 65535 → IsItem k item → CredentialKey.ofCbor item = .ok key →
    CredentialEncoding (aaguid ++ Bytes.ofNat 2 id.length ++ id ++ k) ⟨aaguid, id, key⟩

/-- The bytes of extension outputs: one item, which is a map. -/
inductive ExtensionsEncoding : Bytes → Value → Prop
  | intro {k : Bytes} {entries : Cbor.Entries} :
    IsItem k (.map entries) → ExtensionsEncoding k (.map entries)

/-- The bytes of a section that is there or not. -/
inductive SectionEncoding {α : Type} (encoding : Bytes → α → Prop) :
    (present : Bool) → Bytes → Option α → Prop
  | absent : SectionEncoding encoding false [] none
  | present {b : Bytes} {x : α} : encoding b x → SectionEncoding encoding true b (some x)

/-- The bytes of authenticator data. -/
inductive Encoding : Bytes → AuthenticatorData → Prop
  | intro {rpIdHash a e : Bytes} {flags : UInt8} {signCount : UInt32}
      {credential : Option AttestedCredential} {extensions : Option Value} :
    rpIdHash.length = 32 →
    SectionEncoding CredentialEncoding (flags &&& 0x40 != 0) a credential →
    SectionEncoding ExtensionsEncoding (flags &&& 0x80 != 0) e extensions →
    Encoding (rpIdHash ++ [flags] ++ Bytes.ofNat 4 signCount.toNat ++ a ++ e)
      ⟨rpIdHash, flags, signCount, credential, extensions⟩

/-- Up to the credential key the bytes are authenticator data with a credential, and the key is an
item, which is refused as unsupported. -/
inductive UnsupportedKey : Bytes → AlgorithmFault → Prop
  | intro {rpIdHash aaguid id k rest : Bytes} {flags : UInt8} {signCount : UInt32} {item : Value}
      {cause : AlgorithmFault} :
    rpIdHash.length = 32 → flags &&& 0x40 ≠ 0 → aaguid.length = 16 → id.length ≤ 65535 →
    IsItem k item → CredentialKey.ofCbor item = .error (.unsupportedAlgorithm cause) →
    UnsupportedKey (rpIdHash ++ [flags] ++ Bytes.ofNat 4 signCount.toNat ++
      (aaguid ++ Bytes.ofNat 2 id.length ++ id ++ k) ++ rest) cause

/-! ## Sections -/

/-- The header has a fixed length, and the bytes are its fields one after another. -/
theorem readHeader_eq_some_iff {b rest : Bytes} {header : Header} :
    Header.read b = some (header, rest) ↔ header.rpIdHash.length = 32 ∧
      b = header.rpIdHash ++ [header.flags] ++ Bytes.ofNat 4 header.signCount.toNat ++ rest := by
  refine ⟨fun h => ?_, fun h => ?_⟩
  · obtain ⟨⟨rpIdHash, b₁⟩, hhash, h⟩ := Option.bind_eq_some_iff.1 h
    obtain ⟨⟨flags, b₂⟩, hflags, h⟩ := Option.bind_eq_some_iff.1 h
    obtain ⟨⟨count, b₃⟩, hcount, h⟩ := Option.bind_eq_some_iff.1 h
    cases h
    obtain ⟨rfl, hlength⟩ := Bytes.splitAt?_eq_some hhash
    obtain ⟨rfl, hlt⟩ := Reader.number_eq_some_iff.1 hcount
    cases b₁ with
    | nil => cases hflags
    | cons d b₁ =>
      cases hflags
      refine ⟨hlength, ?_⟩
      simp [UInt32.toNat_ofNat_of_lt' hlt]
  · rcases h with ⟨hlength, rfl⟩
    have hcount : Reader.number 4 (Bytes.ofNat 4 header.signCount.toNat ++ rest) =
        some (header.signCount.toNat, rest) :=
      Reader.number_eq_some_iff.2 ⟨rfl, header.signCount.toNat_lt⟩
    simp only [Header.read, List.append_assoc, rpIdHashLength, ← hlength, Bytes.splitAt?_append]
    simp [Reader.byte, hcount]

/-- The identifier of the model comes before the length of the identifier of the credential. -/
theorem readModel_eq_some_iff {b aaguid rest : Bytes} {length : Nat} :
    readModel b = some ((aaguid, length), rest) ↔
      aaguid.length = 16 ∧ length ≤ 65535 ∧ b = aaguid ++ Bytes.ofNat 2 length ++ rest := by
  refine ⟨fun h => ?_, fun h => ?_⟩
  · obtain ⟨⟨aaguid, b₁⟩, hmodel, h⟩ := Option.bind_eq_some_iff.1 h
    obtain ⟨⟨length, b₂⟩, hnumber, h⟩ := Option.bind_eq_some_iff.1 h
    cases h
    obtain ⟨rfl, haaguid⟩ := Bytes.splitAt?_eq_some hmodel
    obtain ⟨rfl, hlt⟩ := Reader.number_eq_some_iff.1 hnumber
    exact ⟨haaguid, Nat.le_of_lt_succ hlt, (List.append_assoc ..).symm⟩
  · rcases h with ⟨haaguid, hlength, rfl⟩
    have hnumber : Reader.number 2 (Bytes.ofNat 2 length ++ rest) = some (length, rest) :=
      Reader.number_eq_some_iff.2 ⟨rfl, Nat.lt_succ_of_le hlength⟩
    simp only [readModel, List.append_assoc, aaguidLength, ← haaguid, Bytes.splitAt?_append]
    simp [hnumber]

/-- What comes before the key of a credential, and the item of the key. -/
theorem readCredential_append {aaguid id k : Bytes} {item : Value} (haaguid : aaguid.length = 16)
    (hid : id.length ≤ 65535) (hk : IsItem k item) (rest : Bytes) :
    readCredential (aaguid ++ Bytes.ofNat 2 id.length ++ id ++ k ++ rest) =
      (CredentialKey.ofCbor item >>= fun key => .ok (⟨aaguid, id, key⟩, rest)) := by
  have hmodel : readModel (aaguid ++ Bytes.ofNat 2 id.length ++ (id ++ (k ++ rest))) =
      some ((aaguid, id.length), id ++ (k ++ rest)) :=
    readModel_eq_some_iff.2 ⟨haaguid, hid, rfl⟩
  rw [List.append_assoc (_ ++ id), List.append_assoc _ id]
  simp only [readCredential, hmodel, Bytes.splitAt?_append, hk.read_append]
  rfl

/-- Where the credential is not truncated, it begins with the parts of its encoding. -/
theorem readCredential_cases (b : Bytes) :
    (∃ cause, readCredential b = .error (.malformedInput cause)) ∨
      ∃ aaguid id k rest item, b = aaguid ++ Bytes.ofNat 2 id.length ++ id ++ k ++ rest ∧
        aaguid.length = 16 ∧ id.length ≤ 65535 ∧ IsItem k item := by
  unfold readCredential
  split
  · exact .inl ⟨_, rfl⟩
  · rename_i aaguid length b₁ hmodel
    split
    · exact .inl ⟨_, rfl⟩
    · rename_i id b₂ hid
      split
      · exact .inl ⟨_, rfl⟩
      · rename_i item b₃ hitem
        obtain ⟨haaguid, hlength, rfl⟩ := readModel_eq_some_iff.1 hmodel
        obtain ⟨rfl, rfl⟩ := Bytes.splitAt?_eq_some hid
        obtain ⟨k, rfl, hk⟩ := Value.read_eq_some_iff.1 hitem
        exact .inr ⟨aaguid, id, k, b₃, item, by simp, haaguid, hlength, hk⟩

/-- A credential is read from an encoding of it, whatever follows. -/
theorem readCredential_eq_ok_iff {b rest : Bytes} {credential : AttestedCredential} :
    readCredential b = .ok (credential, rest) ↔
      ∃ front, b = front ++ rest ∧ CredentialEncoding front credential := by
  refine ⟨fun h => ?_, fun h => ?_⟩
  · obtain ⟨cause, he⟩ | ⟨aaguid, id, k, rest', item, rfl, haaguid, hid, hk⟩ :=
      readCredential_cases b
    · rw [he] at h
      cases h
    · rw [readCredential_append haaguid hid hk] at h
      obtain ⟨key, hkey, h⟩ := bind_eq_ok.1 h
      cases h
      exact ⟨_, rfl, .intro haaguid hid hk hkey⟩
  · rcases h with ⟨_, rfl, ⟨haaguid, hid, hk, hkey⟩⟩
    rw [readCredential_append haaguid hid hk, hkey]
    rfl

/-- Extensions are read from an encoding of them, whatever follows. -/
theorem readExtensions_eq_ok_iff {b rest : Bytes} {v : Value} :
    readExtensions b = .ok (v, rest) ↔ ∃ front, b = front ++ rest ∧ ExtensionsEncoding front v := by
  refine ⟨fun h => ?_, fun h => ?_⟩
  · unfold readExtensions at h
    split at h
    · cases h
    · rename_i entries b₁ hitem
      cases h
      obtain ⟨k, rfl, hk⟩ := Value.read_eq_some_iff.1 hitem
      exact ⟨k, rfl, .intro hk⟩
    · cases h
  · rcases h with ⟨_, rfl, ⟨hk⟩⟩
    simp [readExtensions, hk.read_append]

/-- A part that may be missing is read from an encoding of it if its flag is set, and from nothing
otherwise. -/
theorem readSection_eq_ok_iff {α : Type} {encoding : Bytes → α → Prop}
    {read : Bytes → Result (α × Bytes)}
    (hread : ∀ {b rest x}, read b = .ok (x, rest) ↔ ∃ front, b = front ++ rest ∧ encoding front x)
    {present : Bool} {b rest : Bytes} {x : Option α} :
    readSection present read b = .ok (x, rest) ↔
      ∃ front, b = front ++ rest ∧ SectionEncoding encoding present front x := by
  cases present with
  | false =>
    refine ⟨fun h => ?_, fun h => ?_⟩
    · rcases h with ⟨⟩
      exact ⟨[], rfl, .absent⟩
    · rcases h with ⟨_, rfl, ⟨⟩⟩
      rfl
  | true =>
    refine ⟨fun h => ?_, fun h => ?_⟩
    · obtain ⟨⟨y, b₁⟩, hy, h⟩ := bind_eq_ok.1 h
      cases h
      obtain ⟨front, rfl, hfront⟩ := hread.1 hy
      exact ⟨front, rfl, .present hfront⟩
    · rcases h with ⟨front, rfl, ⟨⟩ | hx⟩
      rw [readSection, if_pos rfl, hread.2 ⟨front, rfl, hx⟩]
      rfl

/-! ## The whole structure -/

/-- After the header come the two sections and the end. -/
theorem parse_append (header : Header) (hheader : header.rpIdHash.length = 32) (rest : Bytes) :
    parse (header.rpIdHash ++ [header.flags] ++ Bytes.ofNat 4 header.signCount.toNat ++ rest) = (do
      let (credential, b) ← readSection (hasFlag header.flags credentialFlag) readCredential rest
      let (extensions, b) ← readSection (hasFlag header.flags extensionsFlag) readExtensions b
      if b = [] then
        return ⟨header.rpIdHash, header.flags, header.signCount, credential, extensions⟩
      else .error (.malformedInput (.trailing b.length "authenticator data"))) := by
  simp only [parse, readHeader_eq_some_iff.2 ⟨hheader, rfl⟩]

/-- Bytes after the encoding are left over. -/
theorem parse_append_of_encoding {b : Bytes} {d : AuthenticatorData} (h : Encoding b d)
    (t : Bytes) :
    parse (b ++ t) = if t = [] then .ok d
      else .error (.malformedInput (.trailing t.length "authenticator data")) := by
  obtain ⟨hhash, ha, he⟩ := h
  rename_i rpIdHash a e flags signCount credential extensions
  have hcredential : readSection (hasFlag flags credentialFlag) readCredential (a ++ (e ++ t)) =
      .ok (credential, e ++ t) :=
    (readSection_eq_ok_iff readCredential_eq_ok_iff).2 ⟨a, rfl, ha⟩
  have hextensions : readSection (hasFlag flags extensionsFlag) readExtensions (e ++ t) =
      .ok (extensions, t) :=
    (readSection_eq_ok_iff readExtensions_eq_ok_iff).2 ⟨e, rfl, he⟩
  have := parse_append ⟨rpIdHash, flags, signCount⟩ hhash (a ++ (e ++ t))
  rw [List.append_assoc _ e, List.append_assoc _ a, this, hcredential]
  simp only [bind, Except.bind, hextensions]
  rfl

/-- Every encoding of authenticator data is parsed as them. -/
theorem parse_of_encoding {b : Bytes} {d : AuthenticatorData} (h : Encoding b d) :
    parse b = .ok d := by
  have := parse_append_of_encoding h []
  rwa [List.append_nil, if_pos rfl] at this

/-- What is parsed is an encoding. -/
theorem encoding_of_parse {b : Bytes} {d : AuthenticatorData} (h : parse b = .ok d) :
    Encoding b d := by
  unfold parse at h
  split at h
  · cases h
  · rename_i header rest hheader
    obtain ⟨hhash, rfl⟩ := readHeader_eq_some_iff.1 hheader
    obtain ⟨⟨credential, b₁⟩, hcredential, hrest⟩ := bind_eq_ok.1 h
    obtain ⟨⟨extensions, b₂⟩, hextensions, hend⟩ := bind_eq_ok.1 hrest
    obtain ⟨a, rfl, ha⟩ := (readSection_eq_ok_iff readCredential_eq_ok_iff).1 hcredential
    obtain ⟨e, rfl, he⟩ := (readSection_eq_ok_iff readExtensions_eq_ok_iff).1 hextensions
    dsimp only at hend
    split at hend
    · rename_i hnil
      cases hnil
      cases hend
      rw [List.append_nil, ← List.append_assoc]
      exact .intro hhash ha he
    · cases hend

/-! ## Refusals -/

/-- A credential is refused with an error of decoding, for its key or as too short. -/
theorem raises_readCredential (b : Bytes) : Raises OfDecoding (readCredential b) := by
  unfold readCredential
  split
  · exact .error (.malformed _)
  split
  · exact .error (.malformed _)
  split
  · exact .error (.malformed _)
  · exact (CredentialKey.raises_ofCbor _).bind fun key => .pure _

/-- Extension outputs are refused as malformed only. -/
theorem raises_readExtensions (b : Bytes) :
    Raises Error.IsMalformed (readExtensions b) := by
  unfold readExtensions
  split
  · exact .error (.intro _)
  · exact .ok _
  · exact .error (.intro _)

/-- A part that may be missing is refused as the part is. -/
theorem raises_readSection {α : Type} {P : Error → Prop} {read : Bytes → Result (α × Bytes)}
    (hread : ∀ b, Raises P (read b)) (present : Bool) (b : Bytes) :
    Raises P (readSection present read b) := by
  unfold readSection
  split
  · exact (hread b).bind fun _ => .pure _
  · exact .ok _

/-- Nothing is refused as unsupported after the credential. -/
theorem raises_afterCredential (flags : UInt8) (b : Bytes)
    (data : Option Value → AuthenticatorData) :
    Raises Error.IsMalformed (do
      let (extensions, b) ← readSection (hasFlag flags extensionsFlag) readExtensions b
      if b = [] then return data extensions
      else .error (.malformedInput (.trailing b.length "authenticator data"))) := by
  refine (raises_readSection raises_readExtensions _ _).bind fun ⟨extensions, b⟩ => ?_
  dsimp only
  split
  · exact .pure _
  · exact .error (.intro _)

/-- All that authenticator data are refused with are errors of decoding. -/
theorem raises_parse (b : Bytes) : Raises OfDecoding (parse b) := by
  unfold parse
  split
  · exact .error (.malformed _)
  · refine (raises_readSection raises_readCredential _ _).bind fun ⟨credential, b⟩ => ?_
    exact (raises_afterCredential _ _ _).mono fun _ => Error.IsMalformed.ofDecoding

/-- The credential is refused as unsupported if its key is. -/
theorem readCredential_unsupported_iff {b : Bytes} {cause : AlgorithmFault} :
    readCredential b = .error (.unsupportedAlgorithm cause) ↔
      ∃ aaguid id k rest item, b = aaguid ++ Bytes.ofNat 2 id.length ++ id ++ k ++ rest ∧
        aaguid.length = 16 ∧ id.length ≤ 65535 ∧ IsItem k item ∧
        CredentialKey.ofCbor item = .error (.unsupportedAlgorithm cause) := by
  refine ⟨fun h => ?_, fun h => ?_⟩
  · obtain ⟨_, he⟩ | ⟨aaguid, id, k, rest, item, rfl, haaguid, hid, hk⟩ := readCredential_cases b
    · rw [he] at h
      cases h
    · rw [readCredential_append haaguid hid hk] at h
      obtain hkey | ⟨key, -, hok⟩ := bind_eq_error.1 h
      · exact ⟨aaguid, id, k, rest, item, rfl, haaguid, hid, hk, hkey⟩
      · cases hok
  · rcases h with ⟨aaguid, id, k, rest, item, rfl, haaguid, hid, hk, hkey⟩
    rw [readCredential_append haaguid hid hk, hkey]
    rfl

/-- An algorithm is not supported exactly for the key of a credential that is otherwise there. -/
theorem parse_unsupported_iff {b : Bytes} {cause : AlgorithmFault} :
    parse b = .error (.unsupportedAlgorithm cause) ↔ UnsupportedKey b cause := by
  refine ⟨fun h => ?_, fun h => ?_⟩
  · unfold parse at h
    split at h
    · cases h
    · rename_i header rest hheader
      obtain ⟨hhash, rfl⟩ := readHeader_eq_some_iff.1 hheader
      obtain hcredential | ⟨⟨credential, b₁⟩, -, hafter⟩ := bind_eq_error.1 h
      · unfold readSection at hcredential
        split at hcredential
        · rename_i hflag
          obtain hread | ⟨_, -, hok⟩ := bind_eq_error.1 hcredential
          · obtain ⟨aaguid, id, k, rest, item, rfl, haaguid, hid, hk, hkey⟩ :=
              readCredential_unsupported_iff.1 hread
            rw [← List.append_assoc]
            exact .intro hhash (by simpa [hasFlag, credentialFlag] using hflag) haaguid hid hk hkey
          · cases hok
        · cases hcredential
      · cases raises_afterCredential _ _ _ _ hafter
  · rcases h with ⟨hhash, hflag, haaguid, hid, hk, hkey⟩
    rename_i rpIdHash aaguid id k rest flags signCount item
    have hread := readCredential_unsupported_iff.2
      ⟨aaguid, id, k, rest, item, rfl, haaguid, hid, hk, hkey⟩
    have hflag : hasFlag flags credentialFlag = true := by
      simpa [hasFlag, credentialFlag] using hflag
    rw [List.append_assoc _ _ rest,
      parse_append ⟨rpIdHash, flags, signCount⟩ hhash]
    rw [readSection, if_pos hflag, hread]
    rfl

/-- An unsupported key stays one, whatever follows it. -/
theorem UnsupportedKey.append {b : Bytes} {cause : AlgorithmFault} (h : UnsupportedKey b cause)
    (t : Bytes) : UnsupportedKey (b ++ t) cause := by
  obtain ⟨hhash, hflag, haaguid, hid, hk, hkey⟩ := h
  rw [List.append_assoc]
  exact .intro hhash hflag haaguid hid hk hkey

/-- The grammar is exact: authenticator data decode to what their encoding says and to nothing else.
Other bytes are refused as malformed, or as unsupported where the credential key is. -/
theorem parse_iff_encoding (b : Bytes) :
    (∀ d, parse b = .ok d ↔ Encoding b d) ∧
      (∀ e, parse b = .error e → OfDecoding e) ∧
      ∀ cause, parse b = .error (.unsupportedAlgorithm cause) ↔ UnsupportedKey b cause :=
  ⟨fun _ => ⟨encoding_of_parse, parse_of_encoding⟩, raises_parse b,
    fun _ => parse_unsupported_iff⟩

end AuthenticatorData

end Attestation
