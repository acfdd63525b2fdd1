import Attestation.Proofs.Tpm.Cursor
import Attestation.Tpm.PublicArea

/-!
# The layout of public areas

`PublicArea.Encoding` says which bytes are a public area and of what object, field by field and
without a reader. The details of an algorithm are so many bytes as its identifier tells, and nothing
is said of what they are. `PublicArea.parse` accepts exactly these bytes (`parse_eq_ok_iff`). Bytes
after an area are left over if its type is known (`parse_append_of_known`), and otherwise belong to
the part that is not decoded (`parse_append_of_other`).
-/

namespace Attestation.Tpm

open Read

namespace PublicArea

/-! ## Layout -/

/-- How many bytes of details a symmetric algorithm has. -/
def symmetricSize (alg : UInt16) : Nat :=
  if alg = nullId then 0 else 4

/-- How many bytes of details a signing scheme has. -/
def schemeSize (scheme : UInt16) : Nat :=
  if scheme = nullId then 0 else if scheme = ecdaaId then 4 else 2

/-- How many bytes of details a key derivation scheme has. -/
def kdfSize (kdf : UInt16) : Nat :=
  if kdf = nullId then 0 else 2

/-- The bytes of an algorithm: its identifier, and details of the size that it tells. -/
inductive AlgorithmEncoding (size : UInt16 → Nat) : Bytes → UInt16 → Prop
  | intro {id : UInt16} {details : Bytes} :
    details.length = size id → AlgorithmEncoding size (Bytes.ofNat 2 id.toNat ++ details) id

/-- The bytes of the parameters and the key of an RSA object. -/
inductive RsaEncoding : Bytes → PublicBody → Prop
  | intro {a b modulus : Bytes} {symmetric scheme keyBits : UInt16} {exponent : UInt32} :
    AlgorithmEncoding symmetricSize a symmetric → AlgorithmEncoding schemeSize b scheme →
    modulus.length < 65536 →
    RsaEncoding (a ++ b ++ Bytes.ofNat 2 keyBits.toNat ++ Bytes.ofNat 4 exponent.toNat ++
      sizedBytes modulus) (.rsa symmetric scheme keyBits exponent modulus)

/-- The bytes of the parameters and the key of an object on a curve. -/
inductive EccEncoding : Bytes → PublicBody → Prop
  | intro {a b d x y : Bytes} {symmetric scheme curve kdf : UInt16} :
    AlgorithmEncoding symmetricSize a symmetric → AlgorithmEncoding schemeSize b scheme →
    AlgorithmEncoding kdfSize d kdf → x.length < 65536 → y.length < 65536 →
    EccEncoding (a ++ b ++ Bytes.ofNat 2 curve.toNat ++ d ++ sizedBytes x ++ sizedBytes y)
      (.ecc symmetric scheme curve kdf x y)

/-- The bytes after the policy, by the type of the object. An object of another type than the two
that are known here may have any. -/
inductive BodyEncoding : UInt16 → Bytes → PublicBody → Prop
  | rsa {b : Bytes} {body : PublicBody} : RsaEncoding b body → BodyEncoding rsaId b body
  | ecc {b : Bytes} {body : PublicBody} : EccEncoding b body → BodyEncoding eccId b body
  | other {type : UInt16} {b : Bytes} :
    type ≠ rsaId → type ≠ eccId → BodyEncoding type b (.other b)

/-- The bytes of a public area. -/
inductive Encoding : Bytes → PublicArea → Prop
  | intro {type nameAlg : UInt16} {attributes : UInt32} {authPolicy b : Bytes} {body : PublicBody} :
    authPolicy.length < 65536 → BodyEncoding type b body →
    Encoding (Bytes.ofNat 2 type.toNat ++ Bytes.ofNat 2 nameAlg.toNat ++
      Bytes.ofNat 4 attributes.toNat ++ sizedBytes authPolicy ++ b)
      ⟨type, nameAlg, attributes, authPolicy, body⟩

/-! ## Algorithms -/

/-- Skipped words are any bytes of their number. -/
theorem skipWords_eq_ok {fields : List String} {u : Unit} {c c' : Cursor} :
    skipWords fields c = .ok u c' ↔ ∃ b, b.length = 2 * fields.length ∧ c.Passes b c' := by
  induction fields generalizing c with
  | nil =>
    rw [skipWords, Read.pure_eq_ok]
    refine ⟨fun h => ?_, fun h => ?_⟩
    · rcases h with ⟨-, rfl⟩
      exact ⟨[], rfl, .refl c⟩
    · rcases h with ⟨b, hb, hc⟩
      obtain rfl := List.eq_nil_of_length_eq_zero hb
      exact ⟨rfl, hc.eq_of_nil.symm⟩
  | cons field fields ih =>
    rw [skipWords, Read.bind_eq_ok]
    refine ⟨fun h => ?_, fun h => ?_⟩
    · rcases h with ⟨_, c₁, hfirst, hothers⟩
      obtain ⟨a, ha, hca⟩ := discard_word16_eq_ok.1 hfirst
      obtain ⟨b, hb, hcb⟩ := ih.1 hothers
      refine ⟨a ++ b, ?_, hca.trans hcb⟩
      rw [List.length_append, ha, hb, List.length_cons]
      omega
    · rcases h with ⟨b, hb, hc⟩
      rw [List.length_cons] at hb
      rw [← List.take_append_drop 2 b] at hc
      obtain ⟨c₁, hca, hcb⟩ := hc.split
      refine ⟨(), c₁, discard_word16_eq_ok.2 ⟨_, ?_, hca⟩, ih.2 ⟨_, ?_, hcb⟩⟩
      · rw [List.length_take]
        omega
      · rw [List.length_drop]
        omega

/-- An algorithm is read with its details, whose number depends on its identifier. -/
theorem follows_readAlgorithm {field : String} {details : UInt16 → List String}
    {size : UInt16 → Nat} (hsize : ∀ id, 2 * (details id).length = size id) :
    Follows (readAlgorithm field details) (AlgorithmEncoding size) := by
  intro c id c'
  rw [readAlgorithm, Read.bind_eq_ok]
  refine ⟨fun h => ?_, fun h => ?_⟩
  · rcases h with ⟨id', c₁, hid, hrest⟩
    obtain ⟨_, c₂, hskip, hpure⟩ := Read.bind_eq_ok.1 hrest
    obtain ⟨rfl, rfl⟩ := Read.pure_eq_ok.1 hpure
    obtain ⟨b, hb, hc⟩ := skipWords_eq_ok.1 hskip
    exact ⟨_, .intro (by rw [hb, hsize]), (word16_eq_ok.1 hid).trans hc⟩
  · rcases h with ⟨_, ⟨hdetails⟩, hc⟩
    obtain ⟨c₁, hca, hcb⟩ := hc.split
    exact ⟨id, c₁, word16_eq_ok.2 hca, Read.bind_eq_ok.2 ⟨(), c',
      skipWords_eq_ok.2 ⟨_, by rw [hdetails, hsize], hcb⟩, Read.pure_eq_ok.2 ⟨rfl, rfl⟩⟩⟩

/-- A symmetric algorithm is read with its details. -/
theorem follows_readSymmetric : Follows readSymmetric (AlgorithmEncoding symmetricSize) := by
  refine follows_readAlgorithm fun id => ?_
  unfold symmetricDetails symmetricSize
  split <;> rfl

/-- A scheme is read with its details. -/
theorem follows_readScheme : Follows readScheme (AlgorithmEncoding schemeSize) := by
  refine follows_readAlgorithm fun id => ?_
  unfold schemeDetails schemeSize
  split
  · rfl
  · split <;> rfl

/-- A key derivation is read with its details. -/
theorem follows_readKdf : Follows readKdf (AlgorithmEncoding kdfSize) := by
  refine follows_readAlgorithm fun id => ?_
  unfold kdfDetails kdfSize
  split <;> rfl

/-! ## Parameters and key -/

/-- The part of an RSA key is read as it is laid out. -/
theorem follows_readRsa : Follows readRsa RsaEncoding := by
  intro c body c'
  refine ⟨fun h => ?_, fun h => ?_⟩
  · obtain ⟨symmetric, c₁, hsymmetric, h₁⟩ := Read.bind_eq_ok.1 h
    obtain ⟨scheme, c₂, hscheme, h₂⟩ := Read.bind_eq_ok.1 h₁
    obtain ⟨keyBits, c₃, hkeyBits, h₃⟩ := Read.bind_eq_ok.1 h₂
    obtain ⟨exponent, c₄, hexponent, h₄⟩ := Read.bind_eq_ok.1 h₃
    obtain ⟨modulus, c₅, hmodulus, h₅⟩ := Read.bind_eq_ok.1 h₄
    obtain ⟨rfl, rfl⟩ := Read.pure_eq_ok.1 h₅
    obtain ⟨a, ha, hca⟩ := (follows_readSymmetric _ _ _).1 hsymmetric
    obtain ⟨b, hb, hcb⟩ := (follows_readScheme _ _ _).1 hscheme
    obtain ⟨hlength, hcm⟩ := sized_eq_ok.1 hmodulus
    have hpasses := (((hca.trans hcb).trans (word16_eq_ok.1 hkeyBits)).trans
      (word32_eq_ok.1 hexponent)).trans hcm
    exact ⟨_, .intro ha hb hlength, hpasses⟩
  · rcases h with ⟨_, ⟨ha, hb, hlength⟩, hc⟩
    obtain ⟨c₄, hc, hmodulus⟩ := hc.split
    obtain ⟨c₃, hc, hexponent⟩ := hc.split
    obtain ⟨c₂, hc, hkeyBits⟩ := hc.split
    obtain ⟨c₁, hsymmetric, hscheme⟩ := hc.split
    refine Read.bind_eq_ok.2 ⟨_, _, (follows_readSymmetric _ _ _).2 ⟨_, ha, hsymmetric⟩, ?_⟩
    refine Read.bind_eq_ok.2 ⟨_, _, (follows_readScheme _ _ _).2 ⟨_, hb, hscheme⟩, ?_⟩
    refine Read.bind_eq_ok.2 ⟨_, _, word16_eq_ok.2 hkeyBits, ?_⟩
    refine Read.bind_eq_ok.2 ⟨_, _, word32_eq_ok.2 hexponent, ?_⟩
    refine Read.bind_eq_ok.2 ⟨_, _, sized_eq_ok.2 ⟨hlength, hmodulus⟩, ?_⟩
    exact Read.pure_eq_ok.2 ⟨rfl, rfl⟩

/-- The part of a key on a curve is read as it is laid out. -/
theorem follows_readEcc : Follows readEcc EccEncoding := by
  intro c body c'
  refine ⟨fun h => ?_, fun h => ?_⟩
  · obtain ⟨symmetric, c₁, hsymmetric, h₁⟩ := Read.bind_eq_ok.1 h
    obtain ⟨scheme, c₂, hscheme, h₂⟩ := Read.bind_eq_ok.1 h₁
    obtain ⟨curve, c₃, hcurve, h₃⟩ := Read.bind_eq_ok.1 h₂
    obtain ⟨kdf, c₄, hkdf, h₄⟩ := Read.bind_eq_ok.1 h₃
    obtain ⟨x, c₅, hx, h₅⟩ := Read.bind_eq_ok.1 h₄
    obtain ⟨y, c₆, hy, h₆⟩ := Read.bind_eq_ok.1 h₅
    obtain ⟨rfl, rfl⟩ := Read.pure_eq_ok.1 h₆
    obtain ⟨a, ha, hca⟩ := (follows_readSymmetric _ _ _).1 hsymmetric
    obtain ⟨b, hb, hcb⟩ := (follows_readScheme _ _ _).1 hscheme
    obtain ⟨d, hd, hcd⟩ := (follows_readKdf _ _ _).1 hkdf
    obtain ⟨hxlength, hcx⟩ := sized_eq_ok.1 hx
    obtain ⟨hylength, hcy⟩ := sized_eq_ok.1 hy
    have hpasses := ((((hca.trans hcb).trans (word16_eq_ok.1 hcurve)).trans hcd).trans hcx).trans
      hcy
    exact ⟨_, .intro ha hb hd hxlength hylength, hpasses⟩
  · rcases h with ⟨_, ⟨ha, hb, hd, hxlength, hylength⟩, hc⟩
    obtain ⟨c₅, hc, hy⟩ := hc.split
    obtain ⟨c₄, hc, hx⟩ := hc.split
    obtain ⟨c₃, hc, hkdf⟩ := hc.split
    obtain ⟨c₂, hc, hcurve⟩ := hc.split
    obtain ⟨c₁, hsymmetric, hscheme⟩ := hc.split
    refine Read.bind_eq_ok.2 ⟨_, _, (follows_readSymmetric _ _ _).2 ⟨_, ha, hsymmetric⟩, ?_⟩
    refine Read.bind_eq_ok.2 ⟨_, _, (follows_readScheme _ _ _).2 ⟨_, hb, hscheme⟩, ?_⟩
    refine Read.bind_eq_ok.2 ⟨_, _, word16_eq_ok.2 hcurve, ?_⟩
    refine Read.bind_eq_ok.2 ⟨_, _, (follows_readKdf _ _ _).2 ⟨_, hd, hkdf⟩, ?_⟩
    refine Read.bind_eq_ok.2 ⟨_, _, sized_eq_ok.2 ⟨hxlength, hx⟩, ?_⟩
    refine Read.bind_eq_ok.2 ⟨_, _, sized_eq_ok.2 ⟨hylength, hy⟩, ?_⟩
    exact Read.pure_eq_ok.2 ⟨rfl, rfl⟩

/-- What is read up to the end of the structure. An object of an unknown type takes all of it, so
that its bytes are a layout only there. -/
theorem readBody_eq_ok {type : UInt16} {body : PublicBody} {c c' : Cursor} (hend : c'.rest = []) :
    readBody type c = .ok body c' ↔ ∃ b, BodyEncoding type b body ∧ c.Passes b c' := by
  unfold readBody
  split
  · rename_i htype
    subst htype
    rw [follows_readRsa]
    refine exists_congr fun b => and_congr_left fun _ => ⟨.rsa, fun h => ?_⟩
    -- The type becomes a variable again, so that the layouts of all types can be told apart.
    generalize htype : rsaId = type at h
    cases h with
    | rsa h => exact h
    | ecc _ => cases htype
    | other hrsa _ => exact absurd htype.symm hrsa
  · rename_i hrsa
    split
    · rename_i htype
      subst htype
      rw [follows_readEcc]
      refine exists_congr fun b => and_congr_left fun _ => ⟨.ecc, fun h => ?_⟩
      generalize htype : eccId = type at h
      cases h with
      | rsa _ => cases htype
      | ecc h => exact h
      | other _ hecc => exact absurd htype.symm hecc
    · rename_i hecc
      refine ⟨fun h => ?_, fun h => ?_⟩
      · obtain ⟨b, c₁, hb, hpure⟩ := Read.bind_eq_ok.1 h
        obtain ⟨rfl, rfl⟩ := Read.pure_eq_ok.1 hpure
        exact ⟨b, .other hrsa hecc, (remainder_eq_ok.1 hb).1⟩
      · rcases h with ⟨b, hb, hc⟩
        cases hb with
        | rsa _ => exact absurd rfl hrsa
        | ecc _ => exact absurd rfl hecc
        | other _ _ =>
          exact Read.bind_eq_ok.2 ⟨_, _, remainder_eq_ok.2 ⟨hc, hend⟩,
            Read.pure_eq_ok.2 ⟨rfl, rfl⟩⟩

/-! ## The whole structure -/

/-- The bytes that decode to an area are the ones of its layout, to their end. -/
theorem parse_eq_ok_iff {b : Bytes} {area : PublicArea} :
    parse b = .ok area ↔ Encoding b area := by
  rw [parse, Read.parse_eq_ok]
  refine ⟨fun h => ?_, fun h => ?_⟩
  · rcases h with ⟨c', h⟩
    obtain ⟨type, c₁, htype, h₁⟩ := Read.bind_eq_ok.1 h
    obtain ⟨nameAlg, c₂, hnameAlg, h₂⟩ := Read.bind_eq_ok.1 h₁
    obtain ⟨attributes, c₃, hattributes, h₃⟩ := Read.bind_eq_ok.1 h₂
    obtain ⟨authPolicy, c₄, hauthPolicy, h₄⟩ := Read.bind_eq_ok.1 h₃
    obtain ⟨body, c₅, hbody, h₅⟩ := Read.bind_eq_ok.1 h₄
    obtain ⟨_, c₆, hfinish, h₆⟩ := Read.bind_eq_ok.1 h₅
    obtain ⟨rfl, rfl⟩ := Read.pure_eq_ok.1 h₆
    obtain ⟨hend, rfl⟩ := finish_eq_ok.1 hfinish
    obtain ⟨hlength, hc⟩ := sized_eq_ok.1 hauthPolicy
    obtain ⟨a, ha, hca⟩ := (readBody_eq_ok hend).1 hbody
    have hpasses := ((((word16_eq_ok.1 htype).trans (word16_eq_ok.1 hnameAlg)).trans
      (word32_eq_ok.1 hattributes)).trans hc).trans hca
    obtain ⟨rfl, -⟩ := Cursor.Passes.start_iff.1 hpasses
    rw [hend, List.append_nil]
    exact .intro hlength ha
  · obtain ⟨c', hend, hwhole⟩ := Cursor.Passes.whole b
    refine ⟨c', ?_⟩
    rcases h with ⟨hlength, hbody⟩
    obtain ⟨c₄, hc, hbodyPasses⟩ := hwhole.split
    obtain ⟨c₃, hc, hauthPolicy⟩ := hc.split
    obtain ⟨c₂, hc, hattributes⟩ := hc.split
    obtain ⟨c₁, htype, hnameAlg⟩ := hc.split
    refine Read.bind_eq_ok.2 ⟨_, _, word16_eq_ok.2 htype, ?_⟩
    refine Read.bind_eq_ok.2 ⟨_, _, word16_eq_ok.2 hnameAlg, ?_⟩
    refine Read.bind_eq_ok.2 ⟨_, _, word32_eq_ok.2 hattributes, ?_⟩
    refine Read.bind_eq_ok.2 ⟨_, _, sized_eq_ok.2 ⟨hlength, hauthPolicy⟩, ?_⟩
    refine Read.bind_eq_ok.2 ⟨_, _, (readBody_eq_ok hend).2 ⟨_, hbody, hbodyPasses⟩, ?_⟩
    refine Read.bind_eq_ok.2 ⟨(), _, finish_eq_ok.2 ⟨hend, rfl⟩, ?_⟩
    exact Read.pure_eq_ok.2 ⟨rfl, rfl⟩

/-! ## Bytes after an area -/

/-- The types of objects whose parameters and key are decoded. -/
def Known (type : UInt16) : Prop :=
  type = rsaId ∨ type = eccId

/-- The part of a key of a known type does not depend on what follows. -/
theorem isLocal_readBody {type : UInt16} (hknown : Known type) : Local (readBody type) := by
  unfold readBody
  rcases hknown with rfl | rfl
  · rw [if_pos rfl]
    exact follows_readRsa.isLocal
  · rw [if_neg (by decide), if_pos rfl]
    exact follows_readEcc.isLocal

/-- The area ends with its key, so bytes after it are left over. -/
theorem parse_append_of_known {b : Bytes} {area : PublicArea} (h : parse b = .ok area)
    (hknown : Known area.type) {t : Bytes} (ht : t ≠ []) :
    parse (b ++ t) = .error (.malformedInput (.trailing t.length "TPMT_PUBLIC")) := by
  obtain ⟨c', h⟩ := Read.parse_eq_ok.1 h
  obtain ⟨type, c₁, htype, h₁⟩ := Read.bind_eq_ok.1 h
  obtain ⟨nameAlg, c₂, hnameAlg, h₂⟩ := Read.bind_eq_ok.1 h₁
  obtain ⟨attributes, c₃, hattributes, h₃⟩ := Read.bind_eq_ok.1 h₂
  obtain ⟨authPolicy, c₄, hauthPolicy, h₄⟩ := Read.bind_eq_ok.1 h₃
  obtain ⟨body, c₅, hbody, h₅⟩ := Read.bind_eq_ok.1 h₄
  obtain ⟨_, c₆, hfinish, h₆⟩ := Read.bind_eq_ok.1 h₅
  obtain ⟨rfl, rfl⟩ := Read.pure_eq_ok.1 h₆
  obtain ⟨hend, rfl⟩ := finish_eq_ok.1 hfinish
  have hread : read (.start (b ++ t)) =
      .error (.malformedInput (.trailing t.length "TPMT_PUBLIC")) (c₆.extend t) := by
    rw [Cursor.start_append, read, bind_of_eq_ok (isLocal_word16 _ htype t),
      bind_of_eq_ok (isLocal_word16 _ hnameAlg t), bind_of_eq_ok (isLocal_word32 _ hattributes t),
      bind_of_eq_ok (isLocal_sized _ hauthPolicy t),
      bind_of_eq_ok (isLocal_readBody hknown hbody t)]
    exact bind_of_eq_error (finish_extend hend ht)
  rw [parse, Read.parse, hread]

/-- The key of an object of another type is all that follows, so it takes the bytes after it. -/
theorem parse_append_of_other {b : Bytes} {area : PublicArea} (h : parse b = .ok area)
    (hother : ¬Known area.type) :
    ∃ rest, area.body = .other rest ∧
      ∀ t, parse (b ++ t) = .ok { area with body := .other (rest ++ t) } := by
  obtain ⟨hlength, hbody⟩ := parse_eq_ok_iff.1 h
  cases hbody with
  | rsa _ => exact absurd (.inl rfl) hother
  | ecc _ => exact absurd (.inr rfl) hother
  | other hrsa hecc =>
    refine ⟨_, rfl, fun t => parse_eq_ok_iff.2 ?_⟩
    rw [List.append_assoc]
    exact .intro hlength (.other hrsa hecc)

/-! ## Failure -/

/-- Details that are not there are malformed input. -/
theorem raises_skipWords (fields : List String) : RaisesMalformed (skipWords fields) := by
  induction fields with
  | nil => exact .pure ()
  | cons field fields ih =>
    refine .bind ?_ fun _ => ih
    exact (RaisesMalformed.word16 field).bind fun _ => .pure ()

/-- An algorithm that is not there is malformed input. -/
theorem raises_readAlgorithm (field : String) (details : UInt16 → List String) :
    RaisesMalformed (readAlgorithm field details) :=
  (RaisesMalformed.word16 field).bind fun _ => (raises_skipWords _).bind fun _ => .pure _

/-- The part of a key is refused as malformed input. -/
theorem raises_readBody (type : UInt16) : RaisesMalformed (readBody type) := by
  unfold readBody
  split
  · refine (raises_readAlgorithm _ _).bind fun _ => ?_
    refine (raises_readAlgorithm _ _).bind fun _ => ?_
    refine (RaisesMalformed.word16 _).bind fun _ => ?_
    refine (RaisesMalformed.word32 _).bind fun _ => ?_
    exact (RaisesMalformed.sized _).bind fun _ => .pure _
  split
  · refine (raises_readAlgorithm _ _).bind fun _ => ?_
    refine (raises_readAlgorithm _ _).bind fun _ => ?_
    refine (RaisesMalformed.word16 _).bind fun _ => ?_
    refine (raises_readAlgorithm _ _).bind fun _ => ?_
    refine (RaisesMalformed.sized _).bind fun _ => ?_
    exact (RaisesMalformed.sized _).bind fun _ => .pure _
  · exact RaisesMalformed.remainder.bind fun _ => .pure _

/-- Bytes that are no public area are malformed. -/
theorem raises_parse (b : Bytes) : Raises Error.IsMalformed (parse b) := by
  refine RaisesMalformed.parse ?_ b
  refine (RaisesMalformed.word16 _).bind fun type => ?_
  refine (RaisesMalformed.word16 _).bind fun _ => ?_
  refine (RaisesMalformed.word32 _).bind fun _ => ?_
  refine (RaisesMalformed.sized _).bind fun _ => ?_
  refine (raises_readBody type).bind fun _ => ?_
  exact (RaisesMalformed.finish _).bind fun _ => .pure _

end PublicArea

end Attestation.Tpm
