import Attestation.Proofs.Certificate.Extension
import Attestation.Proofs.Registration
import Attestation.Proofs.SafetyNet.Token
import Attestation.Proofs.Validator
import Attestation.Verification.SafetyNet

/-!
# What the verification of a signed response accepts

`SafetyNetStatement.Accepts` is all the conditions on a statement and the registration with it, in
terms of the bytes of the response, and a statement is accepted exactly if they hold
(`safetyNet_validate_eq_ok_iff`). The response is one token, so that its header, which names the
certificates, its payload, which makes the claims, and what is signed are told by the same three
parts. The verdict names the certificates of the token, which are not in the statement itself.
-/

namespace Attestation

namespace SafetyNet

/-- The header lists the certificates, each of them in base 64. -/
def TokenHeader.Lists (header : TokenHeader) (certs : List Bytes) : Prop :=
  ∃ texts, header.certificates = some texts ∧
    texts.map Bytes.ofText = certs.map (Base64.encode Base64.standard)

namespace Response

/-- The text is the response in base 64: it is decoded to the text of a value that is the
response. -/
def WrittenAs (response : Response) (text : Bytes) : Prop :=
  ∃ json v, Base64.decode Base64.url text = some json ∧ v.IsText json ∧ ofJson? v = some response

/-- The nonce is the text in base 64 of the given bytes. -/
def HasNonce (response : Response) (b : Bytes) : Prop :=
  ∃ nonce, response.nonce = some nonce ∧ Bytes.ofText nonce = Base64.encode Base64.standard b

/-- The claims say what a verification asks for: the nonce is the hash of the signed data, the
device passes, and the timestamp is near enough to the present. -/
structure Fits (config : Config) (now : Instant) (r : Registration) (response : Response) :
    Prop where
  nonce : response.HasNonce (Digest.sha256.hash r.signedData)
  profileMatches : response.profileMatches = true
  timestamp : checkTimestamp now config.backward config.forward response.timestamp = .ok ()

/-- A claim of another name is ignored, whatever its value holds. -/
theorem ofJson?_unread {front back : List (Bytes × Json.Value)} {raw : Bytes} {v : Json.Value}
    {name : String} (hname : Json.stringText? raw = some name) (hunread : name ∉ names) :
    ofJson? (.object (front ++ (raw, v) :: back)) = ofJson? (.object (front ++ back)) := by
  simp only [ofJson?, Json.Value.record?_unread hname hunread]

/-- A payload is read exactly if a response is written in it. -/
theorem ofPayload_eq_ok {payload : Bytes} {response : Response} :
    ofPayload payload = .ok response ↔ response.WrittenAs payload := by
  unfold ofPayload
  refine ⟨fun h => ?_, fun h => ?_⟩
  · split at h
    · cases h
    · rename_i json hjson
      split at h
      · rename_i parsed hparsed
        cases h
        obtain ⟨v, hv, hresponse⟩ := Option.bind_eq_some_iff.1 hparsed
        exact ⟨json, v, hjson, Json.Value.parse?_eq_some.1 hv, hresponse⟩
      · cases h
  · obtain ⟨json, v, hjson, hv, hresponse⟩ := h
    simp only [hjson, Json.Value.parse?_eq_some.2 hv, Option.bind_some, hresponse]

/-- The nonce is compared after it was decoded, but only one text is decoded to given bytes. -/
theorem hasNonce_eq_true {response : Response} {b : Bytes} :
    response.hasNonce b = true ↔ response.HasNonce b := by
  rw [hasNonce, beq_iff_eq, Option.bind_eq_some_iff]
  exact exists_congr fun nonce =>
    and_congr_right' (Base64.decode_eq_some_iff Base64.proper_standard)

/-- A response has one nonce. -/
theorem HasNonce.unique {response : Response} {b b' : Bytes} (h : response.HasNonce b)
    (h' : response.HasNonce b') : b = b' := by
  obtain ⟨nonce, hnonce, htext⟩ := h
  obtain ⟨_, hnonce', htext'⟩ := h'
  cases hnonce.symm.trans hnonce'
  have hdecode := (Base64.decode_eq_some_iff Base64.proper_standard).2 htext
  exact Option.some.inj
    (hdecode.symm.trans ((Base64.decode_eq_some_iff Base64.proper_standard).2 htext'))

end Response

end SafetyNet

/-- The first common name in the subject of the certificate is the name of the service. -/
def Certificate.IsOfService (c : Certificate) : Prop :=
  ∃ name, c.subject.first? NameAttribute.commonName = some name ∧
    name.text? = some "attest.android.com"

namespace SafetyNetStatement

/-- The response is a text and a token, signed with the algorithm in its header under the key of the
first certificate in its header, which is the one of the service, and its claims fit. -/
inductive Accepts (config : Config) (now : Instant) (s : SafetyNetStatement) (r : Registration)
    (certs : List Bytes) : Prop
  | intro {credential : AttestedCredential} {text : String} {token : SafetyNet.Token}
      {header : SafetyNet.TokenHeader} {leaf : Certificate} {key : PublicKey}
      {response : SafetyNet.Response} :
    r.object.authData.credential = some credential → s.version ≠ "" →
    s.response = Bytes.ofText text → SafetyNet.Token.Layout s.response token →
    header.WrittenAs token.header → header.Lists certs → BeginsWith certs leaf →
    leaf.publicKey = .ok key → token.SignedBy header.alg key → leaf.IsOfService →
    response.WrittenAs token.payload → response.Fits config now r → Accepts config now s r certs

/-- Bytes are a text exactly if they are the encoding of one. -/
theorem isSome_toText?_iff {b : Bytes} :
    b.toText?.isSome = true ↔ ∃ text, b = Bytes.ofText text := by
  simp only [Option.isSome_iff_exists, Bytes.toText?_eq_some]

/-- What is decoded from texts are the byte strings that they are written from. -/
theorem map_decode_eq_iff {texts : List String} {certs : List Bytes} :
    texts.map (fun s => Base64.decode Base64.standard (Bytes.ofText s)) = certs.map some ↔
      texts.map Bytes.ofText = certs.map (Base64.encode Base64.standard) := by
  induction texts generalizing certs with
  | nil => cases certs <;> simp
  | cons s texts ih =>
    cases certs with
    | nil => simp
    | cons b certs =>
      simp only [List.map_cons, List.cons.injEq, ih,
        Base64.decode_eq_some_iff Base64.proper_standard]

/-- The texts of the header are decoded one by one, and none of them may fail. -/
theorem certificates_eq_ok {header : SafetyNet.TokenHeader} {certs : List Bytes} :
    certificates header = .ok certs ↔ header.Lists certs := by
  unfold certificates SafetyNet.TokenHeader.Lists
  cases header.certificates with
  | none =>
    refine ⟨nofun, fun h => ?_⟩
    obtain ⟨_, ⟨⟩, -⟩ := h
  | some texts =>
    simp only [Option.some.injEq, exists_eq_left']
    rw [← map_decode_eq_iff, ← mapM_eq_some]
    cases texts.mapM fun s => Base64.decode Base64.standard (Bytes.ofText s) with
    | none => exact ⟨nofun, nofun⟩
    | some certs' =>
      rw [Option.some.injEq]
      exact pure_eq_ok

/-- The certificate of the signer is the first of the list. -/
theorem signerCertificate_eq_ok {certs : List Bytes} {c : Certificate} :
    signerCertificate certs = .ok c ↔ BeginsWith certs c := by
  rw [← Certificate.leafCertificate_eq_ok]
  cases certs with
  | nil => simp [signerCertificate, leafCertificate]
  | cons der rest => rfl

/-- The name of the service is compared with the first common name. -/
theorem isOfService_eq_true {c : Certificate} : isOfService c = true ↔ c.IsOfService := by
  rw [isOfService, beq_iff_eq, Option.bind_eq_some_iff]
  rfl

/-- A response passes if its claims fit. -/
theorem checkResponse_eq_ok {config : Config} {now : Instant} {r : Registration}
    {response : SafetyNet.Response} {u : Unit} :
    checkResponse config now r response = .ok u ↔ response.Fits config now r := by
  refine ⟨fun h => ?_, fun h => ?_⟩
  · obtain ⟨_, hnonce, h₁⟩ := bind_eq_ok.1 h
    obtain ⟨_, hprofile, htimestamp⟩ := bind_eq_ok.1 h₁
    have hnonce := SafetyNet.Response.hasNonce_eq_true.1 (ensure_eq_ok.1 hnonce)
    exact ⟨hnonce, ensure_eq_ok.1 hprofile, htimestamp⟩
  · rcases h with ⟨hnonce, hprofile, htimestamp⟩
    have hnonce := SafetyNet.Response.hasNonce_eq_true.2 hnonce
    refine bind_eq_ok.2 ⟨(), ensure_eq_ok.2 hnonce, ?_⟩
    exact bind_eq_ok.2 ⟨(), ensure_eq_ok.2 hprofile, htimestamp⟩

/-- A signed response is accepted exactly if all conditions hold. -/
theorem verify_eq_ok {config : Config} {now : Instant} {s : SafetyNetStatement} {r : Registration}
    {v : Verdict} :
    s.verify config now r = .ok v ↔
      ∃ certs, s.Accepts config now r certs ∧ v = ⟨.basic, some certs⟩ := by
  constructor
  · intro h
    obtain ⟨_, hdiscard, h₁⟩ := bind_eq_ok.1 h
    obtain ⟨credential, hcredential, -⟩ := map_eq_ok.1 hdiscard
    obtain ⟨_, hversion, h₂⟩ := bind_eq_ok.1 h₁
    obtain ⟨_, htext, h₃⟩ := bind_eq_ok.1 h₂
    obtain ⟨⟨token, header⟩, htoken, h₄⟩ := bind_eq_ok.1 h₃
    obtain ⟨certs, hcerts, h₅⟩ := bind_eq_ok.1 h₄
    obtain ⟨leaf, hleaf, h₆⟩ := bind_eq_ok.1 h₅
    obtain ⟨key, hkey, h₇⟩ := bind_eq_ok.1 h₆
    obtain ⟨_, hsignature, h₈⟩ := bind_eq_ok.1 h₇
    obtain ⟨_, hservice, h₉⟩ := bind_eq_ok.1 h₈
    obtain ⟨response, hresponse, h₁₀⟩ := bind_eq_ok.1 h₉
    obtain ⟨_, hcheck, hverdict⟩ := bind_eq_ok.1 h₁₀
    have hcredential := Registration.credential_eq_ok.1 hcredential
    have hversion : s.version ≠ "" := by simpa using hversion
    obtain ⟨text, htext⟩ := isSome_toText?_iff.1 (ensure_eq_ok.1 htext)
    obtain ⟨hlayout, hheader⟩ := SafetyNet.Token.parse_eq_ok_iff.1 htoken
    have hcerts := certificates_eq_ok.1 hcerts
    have hleaf := signerCertificate_eq_ok.1 hleaf
    have hsignature := SafetyNet.Token.verify_eq_ok.1 hsignature
    have hservice := isOfService_eq_true.1 (Certificate.require_eq_ok.1 hservice)
    have hresponse := SafetyNet.Response.ofPayload_eq_ok.1 hresponse
    have hfits := checkResponse_eq_ok.1 hcheck
    exact ⟨certs, .intro hcredential hversion htext hlayout hheader hcerts hleaf hkey hsignature
      hservice hresponse hfits, (pure_eq_ok.1 hverdict).symm⟩
  · rintro ⟨certs, ⟨hcredential, hversion, htext, hlayout, hheader, hcerts, hleaf, hkey, hsignature,
      hservice, hresponse, hfits⟩, rfl⟩
    have htext := isSome_toText?_iff.2 ⟨_, htext⟩
    have htoken := SafetyNet.Token.parse_eq_ok_iff.2 ⟨hlayout, hheader⟩
    have hcerts := certificates_eq_ok.2 hcerts
    have hservice := isOfService_eq_true.2 hservice
    have hresponse := SafetyNet.Response.ofPayload_eq_ok.2 hresponse
    refine bind_eq_ok.2 ⟨(), map_eq_ok.2 ⟨_, Registration.credential_eq_ok.2 hcredential, rfl⟩, ?_⟩
    refine bind_eq_ok.2 ⟨(), by simpa using hversion, bind_eq_ok.2 ⟨(), ensure_eq_ok.2 htext, ?_⟩⟩
    refine bind_eq_ok.2 ⟨_, htoken, bind_eq_ok.2 ⟨_, hcerts, ?_⟩⟩
    refine bind_eq_ok.2 ⟨_, signerCertificate_eq_ok.2 hleaf, bind_eq_ok.2 ⟨_, hkey, ?_⟩⟩
    refine bind_eq_ok.2 ⟨(), SafetyNet.Token.verify_eq_ok.2 hsignature, ?_⟩
    refine bind_eq_ok.2 ⟨(), Certificate.require_eq_ok.2 hservice, ?_⟩
    exact bind_eq_ok.2 ⟨_, hresponse, bind_eq_ok.2 ⟨(), checkResponse_eq_ok.2 hfits, rfl⟩⟩

end SafetyNetStatement

/-- The validator of signed responses accepts those whose claims fit and are signed under the key of
a certificate of the service, and its verdict is of the basic type, with the certificates in the
header of the response as trust path. -/
theorem safetyNet_validate_eq_ok_iff {config : Config} {now : Instant} {r : Registration}
    {v : Verdict} :
    (Validator.builtIn config now .androidSafetyNet).validate r = .ok v ↔
      ∃ s certs, r.statement = .androidSafetyNet s ∧ s.Accepts config now r certs ∧
        v = ⟨.basic, some certs⟩ := by
  have hformat (statement : Statement) :
      statement.format = .androidSafetyNet ↔ ∃ s, statement = .androidSafetyNet s := by
    cases statement <;> simp [Statement.format]
  rw [Validator.builtIn_eq_ok_iff .androidSafetyNet (fun s => s.verify config now r) hformat
    fun s hs => by simp [Format.verify, hs]]
  simp only [SafetyNetStatement.verify_eq_ok, exists_and_left]

end Attestation
