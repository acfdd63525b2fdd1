import Attestation.Proofs.Base64
import Attestation.Proofs.Json.Value
import Attestation.SafetyNet.Token

/-!
# Tokens by their parts

The parts of a token are found from both ends, so that bytes with more than two points give parts
that do not fit together. But the header is in base 64, where there is no point, and so the parts of
every token with a header that can be decoded are the three between its two points
(`Token.parse_eq_ok_iff`). What its signature signs are then the first two of them, which the header
and the payload are read from.
-/

namespace Attestation.SafetyNet

open Json (Value)

/-- The text is the header in base 64: it is decoded to the text of a value that is the header. -/
def TokenHeader.WrittenAs (header : TokenHeader) (text : Bytes) : Prop :=
  ∃ json v, Base64.decode Base64.url text = some json ∧ v.IsText json ∧
    TokenHeader.ofJson? v = some header

/-- A member that no header has is ignored, whatever its value holds. -/
theorem TokenHeader.ofJson?_unread {front back : List (Bytes × Value)} {raw : Bytes} {v : Value}
    {name : String} (hname : Json.stringText? raw = some name) (hunread : name ∉ names) :
    ofJson? (.object (front ++ (raw, v) :: back)) = ofJson? (.object (front ++ back)) := by
  simp only [ofJson?, Value.record?_unread hname hunread]

namespace Token

/-- The bytes are three parts with points between them and none inside of them. The first part is
the header, the second one the payload and the third one the signature, which is one of the first
two with the point between them. -/
inductive Layout : Bytes → Token → Prop
  | intro {header payload signature : Bytes} :
    point ∉ header → point ∉ payload → point ∉ signature →
    Layout (header ++ point :: (payload ++ point :: signature))
      ⟨header, payload, signature, header ++ point :: payload⟩

/-- The token has a signature that the key verifies: one by an RSA algorithm under an RSA key, or by
an algorithm on a curve under a key on a curve. -/
inductive SignedBy (t : Token) (alg : TokenAlgorithm) : PublicKey → Prop
  | rsa {padding : Rsa.Padding} {digest : Digest} {modulus exponent sig : Bytes} :
    scheme? alg = some (.rsa padding digest) → Base64.decode Base64.url t.signature = some sig →
    Rsa.verify padding digest modulus exponent t.signed sig = true →
    SignedBy t alg (.rsa modulus exponent)
  | ecdsa {c : PrimeCurve} {digest : Digest} {curve : Curve} {x y encoded sig : Bytes} :
    scheme? alg = some (.ecdsa c digest) → PublicKey.encodePoint curve x y = .ok encoded →
    Base64.decode Base64.url t.signature = some sig →
    Ecdsa.verify c digest encoded t.signed (Ecdsa.Signature.ofFixed? c.length sig) = true →
    SignedBy t alg (.ec curve x y)

/-! ## Points -/

/-- The bytes before the first point. -/
theorem takeWhile_ne_point {front rest : Bytes} (h : point ∉ front) :
    (front ++ point :: rest).takeWhile (· != point) = front := by
  have hfront : ∀ d ∈ front, (d != point) = true := by
    intro d hd
    exact bne_iff_ne.2 fun heq => h (heq ▸ hd)
  rw [List.takeWhile_append_of_pos hfront]
  simp

/-- The first point is the first byte or stands in the others. -/
theorem splitPoint?_cons (d : UInt8) (b : Bytes) :
    splitPoint? (d :: b) = if d = point then some ([], b)
      else (splitPoint? b).map fun (front, rest) => (d :: front, rest) := by
  by_cases hd : d = point
  · simp [splitPoint?, hd]
  · have hne : (d != point) = true := bne_iff_ne.2 hd
    simp only [splitPoint?, List.takeWhile_cons, hne, if_true, List.length_cons,
      List.drop_succ_cons, if_neg hd]
    cases b.drop (b.takeWhile (· != point)).length <;> rfl

/-- Bytes are split at a point that has none before it. -/
theorem splitPoint?_eq_some {b front rest : Bytes} :
    splitPoint? b = some (front, rest) ↔ b = front ++ point :: rest ∧ point ∉ front := by
  refine ⟨fun h => ?_, fun h => ?_⟩
  · induction b generalizing front with
    | nil => cases h
    | cons d b ih =>
      rw [splitPoint?_cons] at h
      split at h
      · rename_i hd
        cases h
        simp [hd]
      · rename_i hd
        obtain ⟨⟨front, rest⟩, hsplit, heq⟩ := Option.map_eq_some_iff.1 h
        cases heq
        obtain ⟨rfl, hfront⟩ := ih hsplit
        simp [hfront, Ne.symm hd]
  · rcases h with ⟨rfl, h⟩
    simp [splitPoint?, takeWhile_ne_point h]

/-- Bytes are split at a point that has none after it. -/
theorem splitLastPoint?_eq_some {b front rest : Bytes} :
    splitLastPoint? b = some (front, rest) ↔ b = front ++ point :: rest ∧ point ∉ rest := by
  unfold splitLastPoint?
  refine ⟨fun h => ?_, fun h => ?_⟩
  · obtain ⟨⟨back, front'⟩, hsplit, heq⟩ := Option.map_eq_some_iff.1 h
    cases heq
    obtain ⟨hb, hback⟩ := splitPoint?_eq_some.1 hsplit
    refine ⟨?_, by simpa using hback⟩
    rw [← List.reverse_reverse b, hb]
    simp
  · rcases h with ⟨rfl, h⟩
    have hsplit : splitPoint? (front ++ point :: rest).reverse =
        some (rest.reverse, front.reverse) := splitPoint?_eq_some.2 ⟨by simp, by simpa using h⟩
    rw [hsplit]
    simp

/-- The second part is the one between the first two points. -/
theorem secondPart?_eq {header payload rest : Bytes} (hheader : point ∉ header)
    (hpayload : point ∉ payload) :
    secondPart? (header ++ point :: (payload ++ point :: rest)) = some payload := by
  rw [secondPart?, splitPoint?_eq_some.2 ⟨rfl, hheader⟩]
  exact congrArg some (takeWhile_ne_point hpayload)

/-! ## Parts -/

/-- Where the first part has no point in it, the parts are those between two points. -/
theorem layout_iff {b : Bytes} {t : Token} :
    Layout b t ↔ ofBytes? b = some t ∧ point ∉ t.header := by
  refine ⟨fun h => ?_, fun h => ?_⟩
  · obtain ⟨hheader, hpayload, hsignature⟩ := h
    rename_i header payload signature
    have hsigned : splitLastPoint? (header ++ point :: (payload ++ point :: signature)) =
        some (header ++ point :: payload, signature) :=
      splitLastPoint?_eq_some.2 ⟨by simp, hsignature⟩
    have hsplit : splitLastPoint? (header ++ point :: payload) = some (header, payload) :=
      splitLastPoint?_eq_some.2 ⟨rfl, hpayload⟩
    refine ⟨?_, hheader⟩
    simp only [ofBytes?, hsigned, hsplit, secondPart?_eq hheader hpayload, Option.bind_eq_bind,
      Option.bind_some]
    rfl
  · obtain ⟨h, hheader⟩ := h
    obtain ⟨⟨signed, signature⟩, hsigned, h₁⟩ := Option.bind_eq_some_iff.1 h
    obtain ⟨⟨header, middle⟩, hsplit, h₂⟩ := Option.bind_eq_some_iff.1 h₁
    obtain ⟨payload, hpayload, h₃⟩ := Option.bind_eq_some_iff.1 h₂
    cases h₃
    obtain ⟨rfl, hsignature⟩ := splitLastPoint?_eq_some.1 hsigned
    obtain ⟨rfl, hmiddle⟩ := splitLastPoint?_eq_some.1 hsplit
    -- The last point of what is signed is the first point of all.
    rw [List.append_assoc, List.cons_append] at hpayload ⊢
    obtain rfl : payload = middle :=
      Option.some.inj (hpayload.symm.trans (secondPart?_eq hheader hmiddle))
    exact .intro hheader hmiddle hsignature

end Token

/-- There is no point in base 64. -/
theorem TokenHeader.WrittenAs.point_notMem {header : TokenHeader} {text : Bytes}
    (h : header.WrittenAs text) : Token.point ∉ text := by
  obtain ⟨json, _, hdecode, -⟩ := h
  obtain rfl := (Base64.decode_eq_some_iff Base64.proper_url).1 hdecode
  have hpadding (n : Nat) : Base64.padding Base64.url n = [] := rfl
  intro hmem
  rw [Base64.encode, hpadding, List.append_nil] at hmem
  exact absurd (Base64.isSome_digit?_of_mem Base64.proper_url hmem) (by decide)

namespace Token

/-- The bytes are a token with the given header if they are three parts without points and the
header is written in the first one. -/
theorem parse_eq_ok_iff {b : Bytes} {t : Token} {header : TokenHeader} :
    parse b = .ok (t, header) ↔ Layout b t ∧ header.WrittenAs t.header := by
  refine ⟨fun h => ?_, fun h => ?_⟩
  · simp only [parse] at h
    split at h
    · rename_i parsed hparsed
      cases h
      obtain ⟨token, htoken, h₁⟩ := Option.bind_eq_some_iff.1 hparsed
      obtain ⟨json, hjson, h₂⟩ := Option.bind_eq_some_iff.1 h₁
      obtain ⟨v, hv, h₃⟩ := Option.bind_eq_some_iff.1 h₂
      obtain ⟨_, hheader, h₄⟩ := Option.bind_eq_some_iff.1 h₃
      cases h₄
      have hwritten : header.WrittenAs t.header :=
        ⟨json, v, hjson, Value.parse?_eq_some.1 hv, hheader⟩
      exact ⟨layout_iff.2 ⟨htoken, hwritten.point_notMem⟩, hwritten⟩
    · cases h
  · obtain ⟨hlayout, json, v, hjson, hv, hheader⟩ := h
    have hv := Value.parse?_eq_some.2 hv
    simp only [parse, (layout_iff.1 hlayout).1, hjson, hv, hheader, Option.bind_eq_bind,
      Option.bind_some]
    rfl

/-! ## Signatures -/

/-- A signature passes if it was decoded and accepted. -/
theorem require_eq_ok {accepted : Option Bool} {u : Unit} :
    require accepted = .ok u ↔ accepted = some true := by
  unfold require
  split <;> simp_all

/-- A token is verified exactly if it has a signature that the key verifies. -/
theorem verify_eq_ok {t : Token} {alg : TokenAlgorithm} {key : PublicKey} {u : Unit} :
    t.verify alg key = .ok u ↔ t.SignedBy alg key := by
  refine ⟨fun h => ?_, fun h => ?_⟩
  · unfold verify at h
    split at h
    · rename_i padding digest modulus exponent hscheme
      obtain ⟨sig, hsig, hverify⟩ := Option.map_eq_some_iff.1 (require_eq_ok.1 h)
      exact .rsa hscheme hsig hverify
    · rename_i c digest curve x y hscheme
      obtain ⟨encoded, hencoded, h₁⟩ := bind_eq_ok.1 h
      obtain ⟨sig, hsig, hverify⟩ := Option.map_eq_some_iff.1 (require_eq_ok.1 h₁)
      exact .ecdsa hscheme hencoded hsig hverify
    · cases h
  · cases h with
    | rsa hscheme hsig hverify =>
      simp only [verify, hscheme, hsig, Option.map_some, hverify, require_eq_ok]
    | ecdsa hscheme hencoded hsig hverify =>
      simp only [verify, hscheme]
      exact bind_eq_ok.2 ⟨_, hencoded, require_eq_ok.2 (by rw [hsig, Option.map_some, hverify])⟩

end Token

end Attestation.SafetyNet
