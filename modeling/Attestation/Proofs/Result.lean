import Attestation.Verification.Verdict

/-!
# Results of chained steps

A chain of steps succeeds exactly if each of them does (`bind_eq_ok`), and what it raises is raised
by one of them: `Raises P x` says that an error of `x` satisfies `P`, and is closed under chaining.
The checks `ensure` and `orError` are steps of both kinds, like their namesakes for certificates.
-/

namespace Attestation

section
variable {α β : Type}

instance decidableEqResult [DecidableEq α] : DecidableEq (Result α)
  | .ok a, .ok b => decidable_of_iff (a = b) (by simp)
  | .error e, .error e' => decidable_of_iff (e = e') (by simp)
  | .ok _, .error _ => isFalse nofun
  | .error _, .ok _ => isFalse nofun

/-! ## Success -/

/-- A chain succeeds if the first step does and the others do on its value. -/
theorem bind_eq_ok {x : Result α} {f : α → Result β} {v : β} :
    (x >>= f) = .ok v ↔ ∃ a, x = .ok a ∧ f a = .ok v := by
  cases x with
  | ok a => simp [bind, Except.bind]
  | error e => simp [bind, Except.bind]

/-- A chain fails if the first step does, or one of the others on its value. -/
theorem bind_eq_error {x : Result α} {f : α → Result β} {e : Error} :
    (x >>= f) = .error e ↔ x = .error e ∨ ∃ a, x = .ok a ∧ f a = .error e := by
  cases x with
  | ok a => simp [bind, Except.bind]
  | error e => simp [bind, Except.bind]

/-- A value is a success with that value. -/
@[simp] theorem pure_eq_ok {a v : α} : (pure a : Result α) = .ok v ↔ a = v := by
  simp [pure, Except.pure]

/-- A function of a result succeeds where the result does. -/
theorem map_eq_ok {x : Result α} {f : α → β} {v : β} :
    (f <$> x) = .ok v ↔ ∃ a, x = .ok a ∧ f a = v := by
  cases x with
  | ok a => simp [Functor.map, Except.map]
  | error e => simp [Functor.map, Except.map]

/-- A list is mapped if each of its members is. -/
theorem mapM_eq_some {f : α → Option β} {xs : List α} {ys : List β} :
    xs.mapM f = some ys ↔ xs.map f = ys.map some := by
  induction xs generalizing ys with
  | nil => cases ys <;> simp
  | cons x xs ih =>
    rw [List.mapM_cons, List.map_cons]
    refine ⟨fun h => ?_, fun h => ?_⟩
    · obtain ⟨y, hy, h₁⟩ := Option.bind_eq_some_iff.1 h
      obtain ⟨zs, hzs, h₂⟩ := Option.bind_eq_some_iff.1 h₁
      cases h₂
      rw [hy, ih.1 hzs, List.map_cons]
    · cases ys with
      | nil => cases h
      | cons y ys =>
        obtain ⟨hy, hys⟩ := List.cons.inj h
        rw [hy, ih.2 hys]
        rfl

/-- A list is mapped in two steps if each of its members is. -/
theorem exists_mapM_mapM {γ : Type} {f : α → Option β} {g : β → Option γ} {xs : List α}
    {zs : List γ} : (∃ ys, xs.mapM f = some ys ∧ ys.mapM g = some zs) ↔
      xs.map (fun x => (f x).bind g) = zs.map some := by
  simp only [mapM_eq_some]
  induction xs generalizing zs with
  | nil =>
    refine ⟨fun ⟨ys, hys, hzs⟩ => ?_, fun h => ⟨[], rfl, h⟩⟩
    cases ys with
    | nil => exact hzs
    | cons => cases hys
  | cons x xs ih =>
    refine ⟨fun ⟨ys, hys, hzs⟩ => ?_, fun h => ?_⟩
    · cases ys with
      | nil => cases hys
      | cons y ys =>
        obtain ⟨hy, hys⟩ := List.cons.inj hys
        cases zs with
        | nil => cases hzs
        | cons z zs =>
          obtain ⟨hz, hzs⟩ := List.cons.inj hzs
          rw [List.map_cons, List.map_cons, ih.1 ⟨ys, hys, hzs⟩, hy, Option.bind_some, hz]
    · cases zs with
      | nil => cases h
      | cons z zs =>
        obtain ⟨hz, hzs⟩ := List.cons.inj h
        obtain ⟨ys, hys, hmap⟩ := ih.2 hzs
        obtain ⟨y, hy, hgz⟩ := Option.bind_eq_some_iff.1 hz
        exact ⟨y :: ys, by rw [List.map_cons, hy, hys, List.map_cons],
          by rw [List.map_cons, hgz, hmap, List.map_cons]⟩

/-- What is ensured is true. -/
@[simp] theorem ensure_eq_ok {condition : Bool} {e : Error} {u : Unit} :
    ensure condition e = .ok u ↔ condition = true := by
  cases condition <;> simp [ensure]

/-- What is asked for is there. -/
@[simp] theorem orError_eq_ok {e : Error} {x : Option α} {v : α} :
    orError e x = .ok v ↔ x = some v := by
  cases x <;> simp [orError]

/-- What is required of a certificate is true. -/
@[simp] theorem Certificate.require_eq_ok {condition : Bool} {fault : CertificateFault} {u : Unit} :
    Certificate.require condition fault = .ok u ↔ condition = true := by
  cases condition <;> simp [Certificate.require]

/-- What is asked for in a certificate is there. -/
@[simp] theorem Certificate.orFault_eq_ok {fault : CertificateFault} {x : Option α} {v : α} :
    Certificate.orFault fault x = .ok v ↔ x = some v := by
  cases x <;> simp [Certificate.orFault]

end

/-! ## Failure -/

/-- The input is malformed. -/
inductive Error.IsMalformed : Error → Prop
  | intro (cause : InputFault) : IsMalformed (.malformedInput cause)

/-- What a decoder of keys refuses: malformed input, or an algorithm that is not supported. -/
inductive Error.OfDecoding : Error → Prop
  | malformed (cause : InputFault) : OfDecoding (.malformedInput cause)
  | unsupported (cause : AlgorithmFault) : OfDecoding (.unsupportedAlgorithm cause)

/-- The certificate is at fault. -/
inductive Error.OfCertificate : Error → Prop
  | intro (fault : CertificateFault) : OfCertificate (.certificateInvalid fault)

/-- Malformed input is an error of decoding. -/
theorem Error.IsMalformed.ofDecoding {e : Error} : e.IsMalformed → e.OfDecoding
  | .intro cause => .malformed cause

/-- Every error of the result satisfies the predicate. -/
def Raises {α : Type} (P : Error → Prop) (x : Result α) : Prop :=
  ∀ e, x = .error e → P e

namespace Raises

variable {α β : Type} {P Q : Error → Prop}

/-- A success raises nothing. -/
theorem ok (a : α) : Raises P (.ok a : Result α) :=
  fun _ h => nomatch h

/-- A value raises nothing. -/
theorem pure (a : α) : Raises P (Pure.pure a : Result α) :=
  .ok a

/-- An error raises itself. -/
theorem error {e : Error} (h : P e) : Raises P (.error e : Result α) := by
  rintro _ ⟨⟩
  exact h

/-- What raises errors of a kind raises errors of a wider one. -/
theorem mono {x : Result α} (h : Raises P x) (hPQ : ∀ e, P e → Q e) : Raises Q x :=
  fun e he => hPQ e (h e he)

/-- A chain raises what its first step raises, or what the others raise on the value of the first
one. -/
theorem bind_of_ok {x : Result α} {f : α → Result β} (hx : Raises P x)
    (hf : ∀ a, x = .ok a → Raises P (f a)) : Raises P (x >>= f) := by
  intro e h
  cases x with
  | ok a => exact hf a rfl e h
  | error e' =>
    cases h
    exact hx _ rfl

/-- A chain raises what its first step or one of the others raises. -/
theorem bind {x : Result α} {f : α → Result β} (hx : Raises P x) (hf : ∀ a, Raises P (f a)) :
    Raises P (x >>= f) :=
  hx.bind_of_ok fun a _ => hf a

/-- An error that the other steps do not raise is that of the first step. -/
theorem bind_eq_error_iff {x : Result α} {f : α → Result β} {e : Error} (hf : ∀ a, Raises P (f a))
    (he : ¬P e) : (x >>= f) = .error e ↔ x = .error e := by
  rw [bind_eq_error]
  exact or_iff_left fun ⟨a, _, h⟩ => he (hf a e h)

/-- A function of a result raises what the result does. -/
theorem map {x : Result α} (hx : Raises P x) (f : α → β) : Raises P (f <$> x) := by
  intro e h
  cases x with
  | ok a => cases h
  | error e' =>
    cases h
    exact hx _ rfl

/-- A condition raises the error that it is ensured with. -/
theorem ensure {condition : Bool} {e : Error} (h : P e) : Raises P (ensure condition e) := by
  cases condition with
  | true => exact .ok ()
  | false => exact .error h

/-- What may be missing raises the error that it is asked for with. -/
theorem orError {e : Error} {x : Option α} (h : P e) : Raises P (orError e x) := by
  cases x with
  | some x => exact .ok x
  | none => exact .error h

/-- What may be missing in a certificate is a complaint about the certificate. -/
theorem orFault (fault : CertificateFault) (x : Option α) :
    Raises Error.OfCertificate (Certificate.orFault fault x) := by
  cases x with
  | some x => exact .ok x
  | none => exact .error (.intro fault)

end Raises

end Attestation
