import Attestation.Proofs.Result
import Attestation.Verifier

/-!
# Built-in validators

A built-in validator verifies the statements of its own format (`Validator.builtIn_of_format`) and
refuses every registration of another one (`Validator.builtIn_of_ne`). A verifier to which no
validator was added hands each registration to the one of its format
(`Verifier.verify_of_added_eq_nil`).
-/

namespace Attestation

/-- Formats have different names. -/
theorem Format.name_inj {f g : Format} : f.name = g.name ↔ f = g := by
  constructor
  · intro h
    have := Format.ofName?_name f
    rw [h, Format.ofName?_name g] at this
    exact (Option.some.inj this).symm
  · rintro rfl
    rfl

/-- The procedure of a format verifies its own statements as such. -/
theorem Format.verify_own (config : Config) (now : Instant) (r : Registration) :
    r.statement.format.verify config now r =
      match r.statement with
      | .tpm s => s.verify config.devicePolicy r
      | .packed s => s.verify r
      | .androidKey s => s.verify config.teeOnly r
      | .androidSafetyNet s => s.verify config now r
      | .fidoU2f s => s.verify r
      | .apple s => s.verify r
      | .none => r.credential.map fun _ => ⟨.none, Option.none⟩ := by
  unfold Format.verify
  cases r.statement <;> rfl

/-- The name of the format is the one of the statement. -/
theorem Registration.format_eq (r : Registration) : r.format = r.statement.format.name :=
  rfl

namespace Validator

variable {config : Config} {now : Instant} {f : Format} {r : Registration}

/-- A validator runs the procedure of its format on the statements of it. -/
theorem builtIn_of_format (h : r.statement.format = f) :
    (builtIn config now f).validate r = f.verify config now r := by
  subst h
  exact if_pos r.format_eq

/-- A validator does not support statements of other formats. -/
theorem builtIn_of_ne (h : r.statement.format ≠ f) :
    (builtIn config now f).validate r = .error (.unsupportedFormat (.unknown r.format)) :=
  if_neg fun hname => h (Format.name_inj.1 hname)

/-- What a built-in validator accepts, it has verified by the procedure of its own format. -/
theorem builtIn_eq_ok {v : Verdict} :
    (builtIn config now f).validate r = .ok v ↔
      r.statement.format = f ∧ f.verify config now r = .ok v := by
  by_cases h : r.statement.format = f
  · rw [builtIn_of_format h]
    simp [h]
  · rw [builtIn_of_ne h]
    simp [h]

/-- The validator of a format accepts the statements of the format that the procedure for them
accepts; `wrap` makes a statement of them, and `verify` is the procedure. -/
theorem builtIn_eq_ok_iff {S : Type} {v : Verdict} (wrap : S → Statement)
    (verify : S → Result Verdict)
    (hformat : ∀ statement : Statement, statement.format = f ↔ ∃ s, statement = wrap s)
    (hverify : ∀ s, r.statement = wrap s → f.verify config now r = verify s) :
    (builtIn config now f).validate r = .ok v ↔ ∃ s, r.statement = wrap s ∧ verify s = .ok v := by
  rw [builtIn_eq_ok, hformat]
  refine ⟨fun h => ?_, fun h => ?_⟩
  · rcases h with ⟨⟨s, hs⟩, hv⟩
    exact ⟨s, hs, (hverify s hs).symm.trans hv⟩
  · rcases h with ⟨s, hs, hv⟩
    exact ⟨⟨s, hs⟩, (hverify s hs).trans hv⟩

end Validator

namespace Verifier

variable {v : Verifier} {now : Instant}

/-- Without validators that were added, the built-in ones are asked. -/
theorem validatorFor_of_added_eq_nil (h : v.added = []) (f : Format) :
    v.validatorFor now f.name = .ok (.builtIn v.config now f) := by
  have hfind : Format.all.find? (fun g => f.name == g.name) = some f := by
    simpa only [Format.ofName?, Bool.beq_comm (a := f.name)] using Format.ofName?_name f
  have hvalidators : (v.validators now).find? (fun validator => validator.supports f.name) =
      some (.builtIn v.config now f) := by
    rw [validators, h, List.nil_append, List.find?_map]
    exact congrArg (Option.map _) hfind
  rw [validatorFor, hvalidators]

/-- With no validator added, a registration is verified by the procedure of its own format. -/
theorem verify_of_added_eq_nil (h : v.added = []) (r : Registration) :
    v.verify now r = r.statement.format.verify v.config now r := by
  rw [verify, Registration.format_eq, validatorFor_of_added_eq_nil h]
  exact Validator.builtIn_of_format rfl

end Verifier

end Attestation
