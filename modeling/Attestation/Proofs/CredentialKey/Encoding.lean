import Attestation.Proofs.CredentialKey.Decoding
import Attestation.Proofs.Statement.Encoding

/-!
# Credential keys as maps

Entries describe a key if the first entries of its labels hold its type, its algorithm and its
numbers (`CredentialKey.DescribedBy`), and it is then the key that is decoded from them
(`CredentialKey.ofCbor_map_eq_ok`). The same labels mean different things for each type of key. A
map that describes no key is not supported if its type and its algorithm are in order and it is the
type or the curve that no key has (`CredentialKey.Unsupported`); any other is malformed, also where
an integer needs more than 64 bits (`CredentialKey.TooWide`). `CredentialKey.ofCbor_classified` puts
the cases together.
-/

namespace Attestation

open Cbor (Value Entries Signed64 signed64)

/-- A curve has one identifier, and the identifier one curve. -/
theorem Curve.ofId?_eq_some {id : Int} {curve : Curve} : ofId? id = some curve ↔ id = curve.id := by
  refine ⟨fun h => ?_, fun h => ?_⟩
  · unfold ofId? at h
    split at h <;> cases h <;> rfl
  · rw [h, ofId?_id]

/-- An identifier without a curve is the one of none of them. -/
theorem Curve.ofId?_eq_none {id : Int} : ofId? id = none ↔ ∀ curve : Curve, id ≠ curve.id := by
  rw [Option.eq_none_iff_forall_ne_some]
  exact forall_congr' fun curve => not_congr ofId?_eq_some

namespace CredentialKey

/-! ## What entries describe -/

/-- The integer that the first entry of the label holds, if it holds one. -/
def integerAt? (entries : Entries) (label : Int) : Option Int :=
  (entries.atInt? label).bind Value.toInt?

/-- The first entry of the label holds the integer, which has 64 bits. -/
def IntegerAt (entries : Entries) (label n : Int) : Prop :=
  integerAt? entries label = some n ∧ Signed64 n

/-- The first entry of the label holds an integer of more than 64 bits. -/
def WideAt (entries : Entries) (label : Int) : Prop :=
  ∃ n, integerAt? entries label = some n ∧ ¬Signed64 n

/-- The first entry of the label of the algorithm holds it; or there is no such entry. -/
def AlgAt (entries : Entries) : Option Int → Prop
  | none => entries.atInt? algLabel = none
  | some alg => IntegerAt entries algLabel alg

/-- The first entry of the label holds the byte string. -/
def BytesAt (entries : Entries) (label : Int) (b : Bytes) : Prop :=
  entries.atInt? label = some (.bytes b)

/-- The type, the algorithm and the numbers of the key are what the first entries of their labels
hold. -/
def DescribedBy (entries : Entries) : CredentialKey → Prop
  | ec2 alg curve x y => IntegerAt entries keyTypeLabel ec2Type ∧ AlgAt entries alg ∧
    IntegerAt entries firstLabel curve.id ∧ BytesAt entries secondLabel x ∧
    BytesAt entries thirdLabel y
  | okp alg x => IntegerAt entries keyTypeLabel okpType ∧ AlgAt entries alg ∧
    IntegerAt entries firstLabel ed25519Id ∧ BytesAt entries secondLabel x
  | rsa alg modulus exponent => IntegerAt entries keyTypeLabel rsaType ∧ AlgAt entries alg ∧
    BytesAt entries firstLabel modulus ∧ BytesAt entries secondLabel exponent

/-- The type and the algorithm are in order, but no key is decoded of this type, or on this curve.
The curve of an octet key pair is another than Ed25519 also where nothing names it, or something
that is no integer. -/
inductive Unsupported (entries : Entries) : AlgorithmFault → Prop
  | keyType {keyType : Int} {alg : Option Int} :
    IntegerAt entries keyTypeLabel keyType → AlgAt entries alg →
    keyType ∉ [okpType, ec2Type, rsaType] → Unsupported entries (.keyType keyType)
  | curve {id : Int} {alg : Option Int} :
    IntegerAt entries keyTypeLabel ec2Type → AlgAt entries alg →
    IntegerAt entries firstLabel id → (∀ curve : Curve, id ≠ curve.id) →
    Unsupported entries (.ecCurve id)
  | octetKeyCurve {alg : Option Int} :
    IntegerAt entries keyTypeLabel okpType → AlgAt entries alg →
    ¬IntegerAt entries firstLabel ed25519Id → ¬WideAt entries firstLabel →
    Unsupported entries .octetKeyCurve

/-- An integer has more than 64 bits: the type; the algorithm of a type that is in order; or, where
both are in order, what names the curve. -/
inductive TooWide (entries : Entries) : Prop
  | keyType : WideAt entries keyTypeLabel → TooWide entries
  | alg {keyType : Int} :
    IntegerAt entries keyTypeLabel keyType → WideAt entries algLabel → TooWide entries
  | curve {keyType : Int} {alg : Option Int} :
    IntegerAt entries keyTypeLabel keyType → keyType ∈ [okpType, ec2Type] → AlgAt entries alg →
    WideAt entries firstLabel → TooWide entries

/-! ## Reading -/

/-- An integer of 64 bits; `missing` is the error where there is none. -/
def expectInteger (missing : Error) : Option Int → Result Int
  | some n => signed64 n
  | none => .error missing

/-- An integer is taken if it is there and fits 64 bits with a sign. -/
theorem expectInteger_eq_ok {missing : Error} {x : Option Int} {n : Int} :
    expectInteger missing x = .ok n ↔ x = some n ∧ Signed64 n := by
  cases x with
  | none => simp [expectInteger]
  | some m =>
    rw [expectInteger, Cbor.signed64_eq_ok]
    refine ⟨fun h => ?_, fun h => ?_⟩
    · exact ⟨congrArg some h.1, h.2⟩
    · exact ⟨Option.some.inj h.1, h.2⟩

/-- An integer is refused as missing, or for its range if it is there. -/
theorem expectInteger_eq_error {missing e : Error} {x : Option Int} :
    expectInteger missing x = .error e ↔ x = none ∧ e = missing ∨
      (∃ n, x = some n ∧ ¬Signed64 n) ∧ e = .malformedInput .integerRange := by
  cases x with
  | none => simp [expectInteger, eq_comm]
  | some m =>
    by_cases hm : Signed64 m
    · simp [expectInteger, signed64, hm]
    · simp [expectInteger, signed64, hm, eq_comm]

section
variable {entries : Entries} {keyType label id : Int} {alg : Option Int} {key : CredentialKey}
  {e : Error}

/-- The key type is an integer that has to be there. -/
theorem readKeyType_eq (entries : Entries) : readKeyType entries =
    expectInteger (.malformedInput .keyTypeMissing) (integerAt? entries keyTypeLabel) := by
  rw [readKeyType, integerAt?]
  cases (entries.atInt? keyTypeLabel).bind Value.toInt? <;> rfl

/-- The key type is the integer under its label. -/
theorem readKeyType_eq_ok :
    readKeyType entries = .ok keyType ↔ IntegerAt entries keyTypeLabel keyType := by
  rw [readKeyType_eq, expectInteger_eq_ok]
  rfl

/-- A key without an algorithm is one for any. -/
theorem readAlg_of_none (h : entries.atInt? algLabel = none) : readAlg entries = .ok none := by
  rw [readAlg, h]

/-- An algorithm that is there has to be an integer. -/
theorem readAlg_of_some {v : Value} (h : entries.atInt? algLabel = some v) : readAlg entries =
    some <$> expectInteger (.malformedInput .keyAlgorithm) (integerAt? entries algLabel) := by
  rw [readAlg, integerAt?, h]
  cases hv : v.toInt? <;> simp [hv] <;> rfl

/-- The algorithm is the integer under its label, or it is not there. -/
theorem readAlg_eq_ok : readAlg entries = .ok alg ↔ AlgAt entries alg := by
  cases h : entries.atInt? algLabel with
  | none =>
    rw [readAlg_of_none h]
    cases alg <;> simp [AlgAt, IntegerAt, integerAt?, h]
  | some v =>
    rw [readAlg_of_some h, map_eq_ok]
    cases alg with
    | none => simp [AlgAt, h]
    | some alg => simp [AlgAt, IntegerAt, expectInteger_eq_ok]

/-- The curve with the identifier, which has to be one of those with two coordinates. -/
def curveOfId (id : Int) : Result Curve :=
  orError (.unsupportedAlgorithm (.ecCurve id)) (Curve.ofId? id)

/-- A curve is told by an integer that has to be there and to have a curve. -/
theorem readCurve_eq (entries : Entries) : readCurve entries =
    expectInteger (.malformedInput .keyCurveMissing) (integerAt? entries firstLabel) >>=
      curveOfId := by
  rw [readCurve, integerAt?]
  cases (entries.atInt? firstLabel).bind Value.toInt? with
  | none => rfl
  | some n =>
    refine congrArg (signed64 n >>= ·) (funext fun id => ?_)
    rw [curveOfId]
    cases Curve.ofId? id <;> rfl

/-- The curve of an octet key is told by an integer that has to be the one for Ed25519. -/
theorem checkOctetKeyCurve_eq (entries : Entries) : checkOctetKeyCurve entries =
    expectInteger (.unsupportedAlgorithm .octetKeyCurve) (integerAt? entries firstLabel) >>=
      fun id => ensure (id = ed25519Id) (.unsupportedAlgorithm .octetKeyCurve) := by
  rw [checkOctetKeyCurve, integerAt?]
  cases (entries.atInt? firstLabel).bind Value.toInt? with
  | none => rfl
  | some n =>
    refine congrArg (signed64 n >>= ·) (funext fun id => ?_)
    by_cases hid : id = ed25519Id <;> simp [hid, ensure]

/-- The curve is told by the integer under the label of its key type. -/
theorem readCurve_eq_ok {curve : Curve} :
    readCurve entries = .ok curve ↔ IntegerAt entries firstLabel curve.id := by
  rw [readCurve_eq, bind_eq_ok]
  simp only [expectInteger_eq_ok, curveOfId, orError_eq_ok, Curve.ofId?_eq_some]
  exact exists_eq_right

/-- An octet key has the identifier of Ed25519 under the label of its curve. -/
theorem checkOctetKeyCurve_eq_ok {u : Unit} :
    checkOctetKeyCurve entries = .ok u ↔ IntegerAt entries firstLabel ed25519Id := by
  rw [checkOctetKeyCurve_eq, bind_eq_ok]
  simp only [expectInteger_eq_ok, ensure_eq_ok, decide_eq_true_eq]
  exact exists_eq_right

/-- A part of a key is the byte string under its label. -/
theorem readBytes_eq_ok {field : String} {b : Bytes} :
    readBytes entries label field = .ok b ↔ BytesAt entries label b := by
  unfold readBytes BytesAt
  split
  · simp_all
  · rename_i v hne hv
    refine iff_of_false nofun fun h => ?_
    exact hne b (Option.some.inj (hv.symm.trans h))
  · simp_all

/-- The key is the one that the entries describe. -/
theorem ofCbor_map_eq_ok : ofCbor (.map entries) = .ok key ↔ key.DescribedBy entries := by
  rw [ofCbor, bind_eq_ok]
  simp only [bind_eq_ok, readKeyType_eq_ok, readAlg_eq_ok]
  refine ⟨fun h => ?_, fun h => ?_⟩
  · obtain ⟨keyType, hkeyType, alg, halg, hfields⟩ := h
    unfold readFields at hfields
    split at hfields
    · rename_i hec2
      subst hec2
      simp only [bind_eq_ok, pure_eq_ok, readCurve_eq_ok, readBytes_eq_ok] at hfields
      obtain ⟨curve, hcurve, x, hx, y, hy, rfl⟩ := hfields
      exact ⟨hkeyType, halg, hcurve, hx, hy⟩
    split at hfields
    · rename_i hokp
      subst hokp
      simp only [bind_eq_ok, pure_eq_ok, checkOctetKeyCurve_eq_ok, readBytes_eq_ok] at hfields
      obtain ⟨_, hcurve, x, hx, rfl⟩ := hfields
      exact ⟨hkeyType, halg, hcurve, hx⟩
    split at hfields
    · rename_i hrsa
      subst hrsa
      simp only [bind_eq_ok, pure_eq_ok, readBytes_eq_ok] at hfields
      obtain ⟨modulus, hmodulus, exponent, hexponent, rfl⟩ := hfields
      exact ⟨hkeyType, halg, hmodulus, hexponent⟩
    · cases hfields
  · cases key with
    | ec2 alg curve x y =>
      obtain ⟨hkeyType, halg, hcurve, hx, hy⟩ := h
      refine ⟨ec2Type, hkeyType, alg, halg, bind_eq_ok.2 ⟨curve, readCurve_eq_ok.2 hcurve, ?_⟩⟩
      exact bind_eq_ok.2 ⟨x, readBytes_eq_ok.2 hx, bind_eq_ok.2 ⟨y, readBytes_eq_ok.2 hy, rfl⟩⟩
    | okp alg x =>
      obtain ⟨hkeyType, halg, hcurve, hx⟩ := h
      refine ⟨okpType, hkeyType, alg, halg, ?_⟩
      refine bind_eq_ok.2 ⟨(), checkOctetKeyCurve_eq_ok.2 hcurve, ?_⟩
      exact bind_eq_ok.2 ⟨x, readBytes_eq_ok.2 hx, rfl⟩
    | rsa alg modulus exponent =>
      obtain ⟨hkeyType, halg, hmodulus, hexponent⟩ := h
      refine ⟨rsaType, hkeyType, alg, halg, ?_⟩
      refine bind_eq_ok.2 ⟨modulus, readBytes_eq_ok.2 hmodulus, ?_⟩
      exact bind_eq_ok.2 ⟨exponent, readBytes_eq_ok.2 hexponent, rfl⟩

/-! ## Refusing -/

/-- The errors of a byte string: it is absent, or something else is in its place. -/
inductive OfBytes : Error → Prop
  | absent (field : String) : OfBytes (.malformedInput (.keyLacks field))
  | shape (field : String) : OfBytes (.malformedInput (.keyFieldShape field))

/-- A part of a key that is no byte string is refused by its own error. -/
theorem raises_ofBytes (entries : Entries) (label : Int) (field : String) :
    Raises OfBytes (readBytes entries label field) := by
  unfold readBytes
  split
  · exact .ok _
  · exact .error (.shape field)
  · exact .error (.absent field)

/-- What is refused for something else than a byte string is refused for its type or its curve. -/
theorem readFields_eq_error (he : ¬OfBytes e) : readFields entries keyType alg = .error e ↔
    keyType = ec2Type ∧ readCurve entries = .error e ∨
      keyType = okpType ∧ checkOctetKeyCurve entries = .error e ∨
      keyType ∉ [okpType, ec2Type, rsaType] ∧ e = .unsupportedAlgorithm (.keyType keyType) := by
  have hbytes := raises_ofBytes entries
  unfold readFields
  split
  · rename_i hec2
    have hraises (curve : Curve) := (hbytes secondLabel "EC2 x-coordinate").bind fun x =>
      (hbytes thirdLabel "EC2 y-coordinate").bind fun y => Raises.pure (ec2 alg curve x y)
    rw [Raises.bind_eq_error_iff hraises he]
    simp [hec2, okpType, ec2Type]
  split
  · rename_i hokp
    have hraises := fun _ : Unit => (hbytes secondLabel "OKP public key").bind fun x =>
      Raises.pure (okp alg x)
    rw [Raises.bind_eq_error_iff hraises he]
    simp [hokp, okpType, ec2Type]
  split
  · rename_i hrsa
    have hraises := (hbytes firstLabel "RSA modulus").bind fun modulus =>
      (hbytes secondLabel "RSA exponent").bind fun exponent =>
        Raises.pure (rsa alg modulus exponent)
    refine iff_of_false (fun h => he (hraises e h)) ?_
    simp [hrsa, okpType, ec2Type, rsaType]
  · rename_i hec2 hokp hrsa
    simp [hec2, hokp, hrsa, eq_comm]

/-- A key is refused by the first of its fields that is: the key type, the algorithm and then the
fields of the type. -/
theorem ofCbor_map_eq_error : ofCbor (.map entries) = .error e ↔
    readKeyType entries = .error e ∨ ∃ keyType, IntegerAt entries keyTypeLabel keyType ∧
      (readAlg entries = .error e ∨
        ∃ alg, AlgAt entries alg ∧ readFields entries keyType alg = .error e) := by
  rw [ofCbor, bind_eq_error]
  simp only [bind_eq_error, readKeyType_eq_ok, readAlg_eq_ok]

/-- The key type is refused if it is no integer, or an integer out of range. -/
theorem readKeyType_eq_error : readKeyType entries = .error e ↔
    integerAt? entries keyTypeLabel = none ∧ e = .malformedInput .keyTypeMissing ∨
      WideAt entries keyTypeLabel ∧ e = .malformedInput .integerRange := by
  rw [readKeyType_eq, expectInteger_eq_error]
  rfl

/-- The algorithm is refused if it is there and no integer, or an integer out of range. -/
theorem readAlg_eq_error : readAlg entries = .error e ↔
    (∃ v, entries.atInt? algLabel = some v ∧ v.toInt? = none) ∧
        e = .malformedInput .keyAlgorithm ∨
      WideAt entries algLabel ∧ e = .malformedInput .integerRange := by
  cases h : entries.atInt? algLabel with
  | none =>
    rw [readAlg_of_none h]
    simp [WideAt, integerAt?, h]
  | some v =>
    have hmap {x : Result Int} : some <$> x = .error e ↔ x = .error e := by
      cases x <;> simp [Functor.map, Except.map]
    rw [readAlg_of_some h, hmap, expectInteger_eq_error]
    simp [WideAt, integerAt?, h]

/-- The curve is refused if it is no integer, an integer out of range or one without a curve. -/
theorem readCurve_eq_error : readCurve entries = .error e ↔
    integerAt? entries firstLabel = none ∧ e = .malformedInput .keyCurveMissing ∨
      WideAt entries firstLabel ∧ e = .malformedInput .integerRange ∨
      ∃ id, IntegerAt entries firstLabel id ∧ (∀ curve : Curve, id ≠ curve.id) ∧
        e = .unsupportedAlgorithm (.ecCurve id) := by
  have hcurve (id : Int) : curveOfId id = .error e ↔
      (∀ curve : Curve, id ≠ curve.id) ∧ e = .unsupportedAlgorithm (.ecCurve id) := by
    rw [curveOfId, ← Curve.ofId?_eq_none]
    cases Curve.ofId? id <;> simp [orError, eq_comm]
  rw [readCurve_eq, bind_eq_error, expectInteger_eq_error, or_assoc]
  simp only [expectInteger_eq_ok, hcurve]
  rfl

/-- The curve of an octet key is refused if it is out of range, or anything but the one for
Ed25519. -/
theorem checkOctetKeyCurve_eq_error : checkOctetKeyCurve entries = .error e ↔
    WideAt entries firstLabel ∧ e = .malformedInput .integerRange ∨
      (¬IntegerAt entries firstLabel ed25519Id ∧ ¬WideAt entries firstLabel) ∧
        e = .unsupportedAlgorithm .octetKeyCurve := by
  have hensure (id : Int) : ensure (id = ed25519Id) (.unsupportedAlgorithm .octetKeyCurve) =
      .error e ↔ id ≠ ed25519Id ∧ e = .unsupportedAlgorithm .octetKeyCurve := by
    by_cases hid : id = ed25519Id <;> simp [ensure, hid, eq_comm]
  rw [checkOctetKeyCurve_eq, bind_eq_error, expectInteger_eq_error]
  simp only [expectInteger_eq_ok, hensure, IntegerAt, WideAt]
  cases hn : integerAt? entries firstLabel with
  | none => simp
  | some n =>
    by_cases hrange : Signed64 n
    · have hid : Signed64 ed25519Id := by decide
      simp [hrange, hid, and_assoc]
    · simp [hrange]

/-- A key is not supported exactly for its type or its curve, where what is read before it is in
order. -/
theorem ofCbor_map_eq_unsupported {fault : AlgorithmFault} :
    ofCbor (.map entries) = .error (.unsupportedAlgorithm fault) ↔ Unsupported entries fault := by
  rw [ofCbor_map_eq_error]
  have hbytes : ¬OfBytes (.unsupportedAlgorithm fault) := nofun
  simp only [readKeyType_eq_error, readAlg_eq_error, readFields_eq_error hbytes, readCurve_eq_error,
    checkOctetKeyCurve_eq_error, reduceCtorEq, and_false, or_false, false_or,
    Error.unsupportedAlgorithm.injEq]
  refine ⟨fun h => ?_, fun h => ?_⟩
  · obtain ⟨keyType, hkeyType, alg, halg, hfields⟩ := h
    rcases hfields with ⟨rfl, id, hid, hother, rfl⟩ | ⟨rfl, ⟨hne, hwide⟩, rfl⟩ | ⟨hother, rfl⟩
    · exact .curve hkeyType halg hid hother
    · exact .octetKeyCurve hkeyType halg hne hwide
    · exact .keyType hkeyType halg hother
  · cases h with
    | keyType hkeyType halg hother => exact ⟨_, hkeyType, _, halg, .inr (.inr ⟨hother, rfl⟩)⟩
    | curve hkeyType halg hid hother =>
      exact ⟨_, hkeyType, _, halg, .inl ⟨rfl, _, hid, hother, rfl⟩⟩
    | octetKeyCurve hkeyType halg hne hwide =>
      exact ⟨_, hkeyType, _, halg, .inr (.inl ⟨rfl, ⟨hne, hwide⟩, rfl⟩)⟩

/-- A key is refused for the range of an integer exactly if one that is read is too wide. -/
theorem ofCbor_map_eq_integerRange :
    ofCbor (.map entries) = .error (.malformedInput .integerRange) ↔ TooWide entries := by
  rw [ofCbor_map_eq_error]
  have hbytes : ¬OfBytes (.malformedInput .integerRange) := nofun
  simp only [readKeyType_eq_error, readAlg_eq_error, readFields_eq_error hbytes, readCurve_eq_error,
    checkOctetKeyCurve_eq_error, reduceCtorEq, and_false, or_false, false_or,
    and_true, exists_false, Error.malformedInput.injEq]
  refine ⟨fun h => ?_, fun h => ?_⟩
  · rcases h with hwide | ⟨keyType, hkeyType, hwide | ⟨alg, halg, ⟨rfl, hwide⟩ | ⟨rfl, hwide⟩⟩⟩
    · exact .keyType hwide
    · exact .alg hkeyType hwide
    · exact .curve hkeyType (by decide) halg hwide
    · exact .curve hkeyType (by decide) halg hwide
  · cases h with
    | keyType hwide => exact .inl hwide
    | alg hkeyType hwide => exact .inr ⟨_, hkeyType, .inl hwide⟩
    | curve hkeyType hmem halg hwide =>
      refine .inr ⟨_, hkeyType, .inr ⟨_, halg, ?_⟩⟩
      simp only [List.mem_cons, List.not_mem_nil, or_false] at hmem
      rcases hmem with rfl | rfl
      · exact .inr ⟨rfl, hwide⟩
      · exact .inl ⟨rfl, hwide⟩

/-! ## Keys -/

/-- The algorithm is an integer of 64 bits, if there is one. -/
def WellFormed (key : CredentialKey) : Prop :=
  ∀ alg, key.alg = some alg → Signed64 alg

/-- A key is described by its entries. -/
theorem exists_describedBy_toCbor (h : key.WellFormed) :
    ∃ entries, key.toCbor = .map entries ∧ key.DescribedBy entries := by
  have hinteger {entries : Entries} {label n : Int} (hn : Signed64 n)
      (h : entries.atInt? label = some (.ofInt n)) : IntegerAt entries label n := by
    refine ⟨?_, hn⟩
    rw [integerAt?, h]
    exact Value.toInt?_ofInt hn
  cases key with
  | ec2 alg curve x y =>
    have hcurve : Signed64 curve.id := by cases curve <;> decide
    refine ⟨_, rfl, ?_⟩
    cases alg with
    | none => exact ⟨hinteger (by decide) rfl, rfl, hinteger hcurve rfl, rfl, rfl⟩
    | some alg =>
      exact ⟨hinteger (by decide) rfl, hinteger (h alg rfl) rfl, hinteger hcurve rfl, rfl,
        rfl⟩
  | okp alg x =>
    refine ⟨_, rfl, ?_⟩
    cases alg with
    | none => exact ⟨hinteger (by decide) rfl, rfl, hinteger (by decide) rfl, rfl⟩
    | some alg =>
      exact ⟨hinteger (by decide) rfl, hinteger (h alg rfl) rfl, hinteger (by decide) rfl, rfl⟩
  | rsa alg modulus exponent =>
    refine ⟨_, rfl, ?_⟩
    cases alg with
    | none => exact ⟨hinteger (by decide) rfl, rfl, rfl, rfl⟩
    | some alg =>
      exact ⟨hinteger (by decide) rfl, hinteger (h alg rfl) rfl, rfl, rfl⟩

end

/-- Nothing but a map is a key. -/
theorem ofCbor_eq_error_of_not_map {v : Value} (h : ∀ entries, v ≠ .map entries) :
    ofCbor v = .error (.malformedInput .keyShape) := by
  cases v with
  | map entries => exact absurd rfl (h entries)
  | _ => rfl

/-- A key is decoded from its own map. What is decoded from an item is the key that it describes as
a map. An item is refused as not supported exactly if it is a map whose type and algorithm are in
order and no key has its type or its curve. Every other item is refused as malformed, and for the
range of an integer exactly if one of those that decide about the kind of key is too wide. -/
theorem ofCbor_classified :
    (∀ key : CredentialKey, key.WellFormed → ofCbor key.toCbor = .ok key) ∧
    ∀ v,
      (∀ key, ofCbor v = .ok key ↔ ∃ entries, v = .map entries ∧ key.DescribedBy entries) ∧
      (∀ fault, ofCbor v = .error (.unsupportedAlgorithm fault) ↔
        ∃ entries, v = .map entries ∧ Unsupported entries fault) ∧
      ((∃ cause, ofCbor v = .error (.malformedInput cause)) ↔
        ∀ entries, v = .map entries →
          (∀ key : CredentialKey, ¬key.DescribedBy entries) ∧ ∀ fault, ¬Unsupported entries fault) ∧
      (ofCbor v = .error (.malformedInput .integerRange) ↔
        ∃ entries, v = .map entries ∧ TooWide entries) := by
  refine ⟨fun key hkey => ?_, fun v => ?_⟩
  · obtain ⟨entries, hentries, hdescribed⟩ := exists_describedBy_toCbor hkey
    rw [hentries]
    exact ofCbor_map_eq_ok.2 hdescribed
  · by_cases hmap : ∃ entries, v = .map entries
    · obtain ⟨entries, rfl⟩ := hmap
      simp only [Value.map.injEq, exists_eq_left', forall_eq', ofCbor_map_eq_ok,
        ofCbor_map_eq_unsupported, ofCbor_map_eq_integerRange, iff_self, implies_true, true_and,
        and_true]
      refine ⟨fun ⟨cause, h⟩ => ⟨fun key hkey => ?_, fun fault hfault => ?_⟩, fun h => ?_⟩
      · cases (ofCbor_map_eq_ok.2 hkey).symm.trans h
      · cases (ofCbor_map_eq_unsupported.2 hfault).symm.trans h
      · cases hresult : ofCbor (.map entries) with
        | ok key => exact absurd (ofCbor_map_eq_ok.1 hresult) (h.1 key)
        | error e =>
          cases raises_ofCbor _ e hresult with
          | malformed cause => exact ⟨cause, rfl⟩
          | unsupported fault => exact absurd (ofCbor_map_eq_unsupported.1 hresult) (h.2 fault)
    · have hne (entries : Entries) : v ≠ .map entries := fun h => hmap ⟨entries, h⟩
      simp [ofCbor_eq_error_of_not_map hne, hne]

/-- A key on a curve. -/
def sampleKey : CredentialKey :=
  ec2 (some (-7)) .p384 [1, 2] []

/-- An octet key pair with a byte string in place of its curve. -/
def curveless : Entries :=
  [(.unsigned 1, .unsigned 1), (.negative 0, .bytes [6])]

/-- An algorithm that is one too large. -/
def wideAlg : Entries :=
  [(.unsigned 3, .unsigned 0x8000000000000000), (.unsigned 1, .unsigned 9)]

/-- A key on a curve is read back; an octet key pair without a curve is not supported; and an
algorithm that is too large comes before a type that no key has. -/
theorem ofCbor_classified_samples :
    ofCbor sampleKey.toCbor = .ok sampleKey ∧
    ofCbor (.map curveless) = .error (.unsupportedAlgorithm .octetKeyCurve) ∧
    ofCbor (.map wideAlg) = .error (.malformedInput .integerRange) := by
  obtain ⟨hkeys, hitems⟩ := ofCbor_classified
  have hwellFormed : sampleKey.WellFormed := by
    rintro _ ⟨⟩
    decide
  obtain ⟨-, hunsupported, -, -⟩ := hitems (.map curveless)
  obtain ⟨-, -, -, hwide⟩ := hitems (.map wideAlg)
  refine ⟨hkeys _ hwellFormed, (hunsupported _).2 ⟨_, rfl, ?_⟩, hwide.2 ⟨_, rfl, ?_⟩⟩
  · have halg : AlgAt curveless none := rfl
    exact .octetKeyCurve ⟨rfl, by decide⟩ halg nofun nofun
  · have hkeyType : IntegerAt wideAlg keyTypeLabel 9 := ⟨rfl, by decide⟩
    exact .alg hkeyType ⟨_, rfl, by simp [Signed64]⟩

end CredentialKey

end Attestation
