import Attestation.Proofs.Result
import Attestation.Signature

/-!
# Algorithms by their identifiers

An identifier names an algorithm, and the algorithm a digest, exactly if the tables of the registry
say so.
-/

namespace Attestation.Algorithm

/-- An algorithm is found under its identifier. -/
theorem ofId_eq_ok {n : Int} {alg : Algorithm} : ofId n = .ok alg ↔ ofId? n = some alg := by
  unfold ofId
  cases ofId? n <;> simp

/-- An algorithm gives its hash function if it has one. -/
theorem digest_eq_ok {alg : Algorithm} {d : Digest} :
    alg.digest = .ok d ↔ alg.digest? = some d := by
  unfold digest
  cases alg.digest? <;> simp

/-- An algorithm hashes a message with its hash function. -/
theorem hash_eq_ok {alg : Algorithm} {message h : Bytes} :
    alg.hash message = .ok h ↔ ∃ d, alg.digest? = some d ∧ h = d.hash message := by
  rw [hash, bind_eq_ok]
  exact exists_congr fun d => and_congr digest_eq_ok (pure_eq_ok.trans eq_comm)

end Attestation.Algorithm
