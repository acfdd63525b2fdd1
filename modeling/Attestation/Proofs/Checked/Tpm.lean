import Attestation.Proofs.Tpm.Calls

/-!
# TPM structures are read in range

Attestation structures and public areas are chains of steps that go together with those at a cursor,
so they are read in range, whatever bytes they are in. Nor is a call of a step ever stopped, in
whatever order calls are made and however many of them failed (`Call.runAll_of_inside`).
-/

namespace Attestation.Tpm

open CheckedRead

/-! ## Attestation structures -/

namespace Attest

/-- The state of the clock is read alike. -/
theorem simulates_readClockInfo : Simulates Checked.readClockInfo readClockInfo :=
  (simulates_word64 _).bind fun _ => (simulates_word32 _).bind fun _ =>
    (simulates_word32 _).bind fun _ => (simulates_word8 _).bind fun _ => .pure _

/-- The name is cut only after the rest was read. This is in range, because its length was checked
before. -/
theorem simulates_readCertifyInfo : Simulates Checked.readCertifyInfo readCertifyInfo := by
  refine (simulates_sized _).bind fun name => ?_
  by_cases hlength : name.length < 2
  · have hsplit : splitName name = throw (.malformedInput .certifiedNameLength) := by
      rw [splitName, Bytes.splitAt?_eq_none.2 hlength]
    rw [if_pos hlength, hsplit]
    exact .throw _
  · obtain ⟨alg, digest, rfl, halg⟩ := Bytes.exists_append_of_le (Nat.le_of_not_lt hlength)
    have hsplit : splitName (alg ++ digest) = pure (UInt16.ofNat alg.toNat, digest) := by
      rw [splitName, ← halg, Bytes.splitAt?_append]
    have hindices : Checked.indices (alg ++ digest) 0 2 = .ok alg :=
      Checked.indices_append (a := []) rfl halg
    rw [if_neg hlength, hsplit, pure_bind]
    refine (simulates_sized _).bind fun qualifiedName => (simulates_finish _).bind fun _ => ?_
    rw [Checked.liftM_eq_pure hindices, pure_bind,
      Checked.liftM_eq_pure (Checked.sliceFrom_append halg), pure_bind]
    exact .pure _

/-- What is attested is read alike. -/
theorem simulates_readAttested (type : UInt16) :
    Simulates (Checked.readAttested type) (readAttested type) := by
  unfold Checked.readAttested readAttested
  split
  · exact simulates_readCertifyInfo.bind fun _ => .pure _
  · exact simulates_remainder.bind fun _ => .pure _

/-- An attestation structure is read alike. -/
theorem simulates_read : Simulates Checked.read read :=
  (simulates_word32 _).bind fun _ => (simulates_word16 _).bind fun type =>
    (simulates_sized _).bind fun _ => (simulates_sized _).bind fun _ =>
      simulates_readClockInfo.bind fun _ => (simulates_word64 _).bind fun _ =>
        (simulates_readAttested type).bind fun _ => .pure _

end Attest

/-! ## Public areas -/

namespace PublicArea

/-- Details are skipped alike. -/
theorem simulates_skipWords (fields : List String) :
    Simulates (Checked.skipWords fields) (skipWords fields) := by
  induction fields with
  | nil => exact .pure ()
  | cons field fields ih => exact (simulates_word16 field).discard.bind fun _ => ih

/-- An algorithm with its details is read alike. -/
theorem simulates_readAlgorithm (field : String) (details : UInt16 → List String) :
    Simulates (Checked.readAlgorithm field details) (readAlgorithm field details) :=
  (simulates_word16 field).bind fun id => (simulates_skipWords (details id)).bind fun _ => .pure _

/-- The part of an RSA key is read alike. -/
theorem simulates_readRsa : Simulates Checked.readRsa readRsa :=
  (simulates_readAlgorithm _ _).bind fun _ => (simulates_readAlgorithm _ _).bind fun _ =>
    (simulates_word16 _).bind fun _ => (simulates_word32 _).bind fun _ =>
      (simulates_sized _).bind fun _ => .pure _

/-- The part of a key on a curve is read alike. -/
theorem simulates_readEcc : Simulates Checked.readEcc readEcc :=
  (simulates_readAlgorithm _ _).bind fun _ => (simulates_readAlgorithm _ _).bind fun _ =>
    (simulates_word16 _).bind fun _ => (simulates_readAlgorithm _ _).bind fun _ =>
      (simulates_sized _).bind fun _ => (simulates_sized _).bind fun _ => .pure _

/-- The part for the type of key is read alike. -/
theorem simulates_readBody (type : UInt16) :
    Simulates (Checked.readBody type) (readBody type) := by
  unfold Checked.readBody readBody
  split
  · exact simulates_readRsa
  · split
    · exact simulates_readEcc
    · exact simulates_remainder.bind fun _ => .pure _

/-- A public area is read alike. -/
theorem simulates_read : Simulates Checked.read read :=
  (simulates_word16 _).bind fun type => (simulates_word16 _).bind fun _ =>
    (simulates_word32 _).bind fun _ => (simulates_sized _).bind fun _ =>
      (simulates_readBody type).bind fun _ => (simulates_finish _).bind fun _ => .pure _

/-- The leading zero bytes of an exponent are cut off in range. -/
theorem checkedKey?_eq (area : PublicArea) : Checked.key? area = .ok area.key? := by
  obtain ⟨type, nameAlg, attributes, authPolicy, body⟩ := area
  cases body with
  | rsa _ _ _ exponent modulus =>
    simp only [Checked.key?, Checked.trimZeros_eq]
    rfl
  | ecc _ _ curve _ x y => rfl
  | other _ => rfl

end PublicArea

/-! ## Calls in any order -/

namespace Call

/-- Calls one after the other lead from a place inside its structure to such a place. -/
theorem runAll_of_inside {p : Place} (hp : p.Inside) (calls : List (Call × String)) :
    ∃ p', runAll calls p = .ok p' ∧ p'.data = p.data ∧ p'.Inside := by
  obtain ⟨p', hrun, hdata, hinside, -⟩ := exists_runAll hp calls
  exact ⟨p', hrun, hdata, hinside⟩

end Call

end Attestation.Tpm
