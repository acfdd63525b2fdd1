import Attestation.Proofs.AuthenticatorData.Grammar
import Attestation.Registration

/-!
# How registrations come about

An attestation object is put together from parts or decoded, and a registration is put together from
an object and bytes or decoded in one go: `Registration.Built` has one constructor for each way. The
parts may be any at all. Whichever way was taken, the name that the format was given by is the one
of the statement (`Registration.Built.name_eq`), the parts that went in are the parts of the
registration (`Registration.Built.parts`), and what the object says of the authenticator is what the
bytes say (`Registration.toldBy`).
-/

namespace Attestation

open Cbor (Value)

/-! ## Ways -/

/-- An attestation object that was made under the name of a format: from any parts, or by decoding,
where the name is the one that the decoded map has for the format. -/
inductive AttestationObject.Built (name : String) : AttestationObject → Prop
  | ofParts {authData : AuthenticatorData} {statement : Statement} {o : AttestationObject} :
    ofParts name authData statement = .ok o → Built name o
  | decode {b rest raw : Bytes} {entries : Cbor.Entries} {o : AttestationObject} :
    Value.read b = some (.map entries, rest) → (Fields.ofEntries entries).format = some name →
    decode b = .ok (o, raw) → Built name o

/-- A registration that was made under the name of a format from bytes of authenticator data and a
hash of client data: out of an object that was made in any way, or by decoding. -/
inductive Registration.Built (name : String) (raw hash : Bytes) : Registration → Prop
  | make {o : AttestationObject} {r : Registration} :
    o.Built name → make o raw hash = .ok r → Built name raw hash r
  | ofObjectBytes {b rest : Bytes} {entries : Cbor.Entries} {o : AttestationObject}
      {r : Registration} :
    Value.read b = some (.map entries, rest) →
    (AttestationObject.Fields.ofEntries entries).format = some name →
    AttestationObject.decode b = .ok (o, raw) → ofObjectBytes b hash = .ok r → Built name raw hash r

/-- The bytes say what the authenticator data say: they begin with the hash, the flags and the
counter, and two of the flags tell which parts follow. -/
structure AuthenticatorData.ToldBy (raw : Bytes) (d : AuthenticatorData) : Prop where
  rpIdHash : d.rpIdHash = raw.take 32
  flags : raw[32]? = some d.flags
  signCount : d.signCount.toNat = Bytes.toNat ((raw.drop 33).take 4)
  credential : d.credential.isSome = (d.flags &&& 0x40 != 0)
  extensions : d.extensions.isSome = (d.flags &&& 0x80 != 0)

/-! ## Objects -/

namespace AttestationObject

/-- Parts make an object exactly under the name of the format of the statement. -/
theorem ofParts_eq_ok {name : String} {authData : AuthenticatorData} {statement : Statement}
    {o : AttestationObject} :
    ofParts name authData statement = .ok o ↔
      name = statement.format.name ∧ o = ⟨authData, statement⟩ := by
  unfold ofParts
  split
  · rename_i hname
    simp [hname, eq_comm]
  · rename_i hname
    simp [hname]

/-- The three fields of a map have to be there, and the object is made of what they decode to. -/
theorem ofFields_eq_ok {fields : Fields} {o : AttestationObject} {raw : Bytes} :
    ofFields fields = .ok (o, raw) ↔ ∃ name item statement authData,
      fields = ⟨some name, some raw, some item⟩ ∧ Statement.ofCbor name item = .ok statement ∧
      AuthenticatorData.parse raw = .ok authData ∧ ofParts name authData statement = .ok o := by
  refine ⟨fun h => ?_, fun h => ?_⟩
  · unfold ofFields at h
    split at h
    · cases h
    · cases h
    · cases h
    · rename_i name raw' item
      obtain ⟨statement, hstatement, h₁⟩ := bind_eq_ok.1 h
      obtain ⟨authData, hauthData, h₂⟩ := bind_eq_ok.1 h₁
      obtain ⟨object, hobject, h₃⟩ := bind_eq_ok.1 h₂
      cases h₃
      exact ⟨name, item, statement, authData, rfl, hstatement, hauthData, hobject⟩
  · rcases h with ⟨name, item, statement, authData, rfl, hstatement, hauthData, hobject⟩
    simp only [ofFields, hstatement, hauthData, bind, Except.bind, hobject]
    rfl

/-- The object of the fields of a map is made of parts under the name that the map has. -/
theorem ofParts_of_ofFields {fields : Fields} {name : String} {o : AttestationObject} {raw : Bytes}
    (hname : fields.format = some name) (h : ofFields fields = .ok (o, raw)) :
    ∃ authData statement, AuthenticatorData.parse raw = .ok authData ∧
      ofParts name authData statement = .ok o := by
  obtain ⟨_, _, statement, authData, rfl, -, hauthData, hobject⟩ := ofFields_eq_ok.1 h
  cases hname
  exact ⟨authData, statement, hauthData, hobject⟩

/-- Bytes that begin with a map are decoded to the object of its fields. -/
theorem decode_eq {b rest : Bytes} {entries : Cbor.Entries}
    (h : Value.read b = some (.map entries, rest)) :
    decode b = ofFields (Fields.ofEntries entries) := by
  simp [decode, h]

/-- The name of the format is the one of the statement, however the object was made. -/
theorem Built.name_eq {name : String} {o : AttestationObject} (h : o.Built name) :
    name = o.statement.format.name := by
  cases h with
  | ofParts h =>
    obtain ⟨hname, rfl⟩ := ofParts_eq_ok.1 h
    exact hname
  | decode hread hname h =>
    rw [decode_eq hread] at h
    obtain ⟨_, _, -, hparts⟩ := ofParts_of_ofFields hname h
    obtain ⟨hname, rfl⟩ := ofParts_eq_ok.1 hparts
    exact hname

end AttestationObject

/-! ## Registrations -/

namespace Registration

/-- The credential of a registration is the one in the authenticator data. -/
theorem credential_eq_ok {r : Registration} {k : AttestedCredential} :
    r.credential = .ok k ↔ r.object.authData.credential = some k := by
  unfold credential AuthenticatorData.requireCredential
  cases r.object.authData.credential <;> simp

/-- What is put together are the parts. -/
theorem parts_of_make {o : AttestationObject} {raw hash : Bytes} {r : Registration}
    (h : make o raw hash = .ok r) :
    r.object = o ∧ r.authenticatorBytes = raw ∧ r.clientDataHash = hash := by
  unfold make at h
  split at h
  · split at h
    · cases h
    · split at h
      · cases h
        exact ⟨rfl, rfl, rfl⟩
      · cases h
  · cases h

/-- Parts that belong together are put together. -/
theorem make_of_decodes {o : AttestationObject} {raw hash : Bytes} {d : AuthenticatorData}
    (hlength : hash.length = 32) (hparse : AuthenticatorData.parse raw = .ok d)
    (hsame : d.same o.authData = true) :
    make o raw hash = .ok ⟨o, raw, hash, hlength, d, hparse, hsame⟩ := by
  unfold make
  rw [dif_pos hlength]
  split
  · rename_i e he
    rw [hparse] at he
    cases he
  · rename_i d' hd'
    obtain rfl : d = d' := Except.ok.inj (hparse.symm.trans hd')
    rw [dif_pos hsame]

/-- What is decoded in one go is decoded and put together. -/
theorem ofObjectBytes_eq {b raw hash : Bytes} {o : AttestationObject}
    (h : AttestationObject.decode b = .ok (o, raw)) : ofObjectBytes b hash = make o raw hash := by
  rw [ofObjectBytes, h]
  rfl

namespace Built

variable {name : String} {raw hash : Bytes} {r : Registration}

/-- However a registration was made, it was put together from an object, which was made somehow. -/
theorem exists_make (h : r.Built name raw hash) :
    ∃ o, AttestationObject.Built name o ∧ Registration.make o raw hash = .ok r := by
  cases h with
  | make hobject hmake => exact ⟨_, hobject, hmake⟩
  | ofObjectBytes hread hname hdecode hregistration =>
    rw [ofObjectBytes_eq hdecode] at hregistration
    exact ⟨_, .decode hread hname hdecode, hregistration⟩

/-- The name of the format is the one of the statement, however the registration was made. -/
theorem name_eq (h : r.Built name raw hash) : name = r.statement.format.name := by
  obtain ⟨o, hobject, hmake⟩ := h.exists_make
  rw [statement, (parts_of_make hmake).1]
  exact hobject.name_eq

/-- The bytes and the hash are those that went in, however the registration was made. -/
theorem parts (h : r.Built name raw hash) :
    r.authenticatorBytes = raw ∧ r.clientDataHash = hash := by
  obtain ⟨o, -, hmake⟩ := h.exists_make
  exact (parts_of_make hmake).2

end Built

end Registration

/-! ## What the bytes say -/

namespace AuthenticatorData

/-- Equality of authenticator data is equality of all parts but the extension outputs, and these are
there or not on both sides. -/
theorem eq_of_same {d e : AuthenticatorData} (h : d.same e = true) :
    d.rpIdHash = e.rpIdHash ∧ d.flags = e.flags ∧ d.signCount = e.signCount ∧
      d.credential = e.credential ∧ d.extensions.isSome = e.extensions.isSome := by
  simp only [same, Bool.and_eq_true, beq_iff_eq] at h
  obtain ⟨⟨⟨⟨hhash, hflags⟩, hcount⟩, hcredential⟩, hextensions⟩ := h
  refine ⟨hhash, hflags, hcount, hcredential, ?_⟩
  cases hd : d.extensions <;> cases he : e.extensions <;> simp_all [sameExtensions]

/-- A part that may be missing is there exactly if its flag is set. -/
theorem SectionEncoding.isSome_eq {α : Type} {encoding : Bytes → α → Prop} {present : Bool}
    {b : Bytes} {x : Option α} (h : SectionEncoding encoding present b x) : x.isSome = present := by
  cases h <;> rfl

/-- Bytes say what they encode. -/
theorem Encoding.toldBy {raw : Bytes} {d : AuthenticatorData} (h : Encoding raw d) :
    d.ToldBy raw := by
  obtain ⟨hhash, hcredential, hextensions⟩ := h
  rename_i rpIdHash a e flags signCount credential extensions
  have htake : (rpIdHash ++ [flags] ++ Bytes.ofNat 4 signCount.toNat ++ a ++ e).take 32 =
      rpIdHash := by
    simp [← hhash]
  exact {
    rpIdHash := htake.symm
    flags := by simp [← hhash]
    signCount := by
      rw [List.append_assoc _ a, List.append_assoc _ (Bytes.ofNat 4 _),
        List.drop_left' (by simp [hhash]), List.take_left' (Bytes.length_ofNat ..),
        Bytes.toNat_ofNat signCount.toNat_lt]
    credential := hcredential.isSome_eq
    extensions := hextensions.isSome_eq }

end AuthenticatorData

/-- What the object of a registration says of the authenticator is what its bytes say. -/
theorem Registration.toldBy (r : Registration) : r.object.authData.ToldBy r.authenticatorBytes := by
  obtain ⟨d, hparse, hsame⟩ := r.decodes
  obtain ⟨hhash, hflags, hcount, hcredential, hextensions⟩ :=
    AuthenticatorData.eq_of_same hsame
  have h := (AuthenticatorData.encoding_of_parse hparse).toldBy
  exact {
    rpIdHash := by rw [← hhash, h.rpIdHash]
    flags := by rw [← hflags, h.flags]
    signCount := by rw [← hcount, h.signCount]
    credential := by rw [← hcredential, ← hflags, h.credential]
    extensions := by rw [← hextensions, ← hflags, h.extensions] }

end Attestation
