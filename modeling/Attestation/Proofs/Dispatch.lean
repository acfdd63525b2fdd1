import Attestation.Proofs.Validator
import Attestation.Session

/-!
# Which validator answers

`Dispatched` says to which validator a name is handed by a verifier with a list of added validators:
of those that support the name, the last one that was added; if there is none, the one that is built
in for the format of this name; and if there is no such format either, none. Each validator that is
added keeps to this (`Dispatched.append`), so a verifier that was built by adding any validators
does (`Verifier.built_dispatches`).

A session changes its verifiers by adding validators only, so all of them are built in this way
(`Session.run_own`), and no action changes the default configuration once it has been used
(`Session.run_defaults`).
-/

namespace Attestation

/-- No validator of the list supports the name. -/
def Unclaimed (vs : List Validator) (name : String) : Prop :=
  ∀ w ∈ vs, w.supports name = false

/-- To which validator a name is handed if the validators of the list were added one after the
other. -/
inductive Dispatched (config : Config) (now : Instant) (vs : List Validator) (name : String) :
    Result Validator → Prop
  | added {k : Nat} {w : Validator} :
    vs[k]? = some w → w.supports name = true →
    (∀ j w', k < j → vs[j]? = some w' → w'.supports name = false) →
    Dispatched config now vs name (.ok w)
  | builtIn {format : Format} :
    Unclaimed vs name → format.name = name →
    Dispatched config now vs name (.ok (.builtIn config now format))
  | unsupported :
    Unclaimed vs name → (∀ format : Format, format.name ≠ name) →
    Dispatched config now vs name (.error (.unsupportedFormat (.unknown name)))

variable {config : Config} {now : Instant} {vs : List Validator} {name : String}

/-- A name that nobody claims is supported by no validator of the list. -/
theorem Unclaimed.false_of_supports (h : Unclaimed vs name) {k : Nat} {w : Validator}
    (hw : vs[k]? = some w) (hsupports : w.supports name = true) : False := by
  rw [h w (List.mem_of_getElem? hw)] at hsupports
  cases hsupports

/-- A name that nobody claims is not claimed by the last one either. -/
theorem unclaimed_append {w : Validator} :
    Unclaimed (vs ++ [w]) name ↔ Unclaimed vs name ∧ w.supports name = false := by
  simp [Unclaimed, or_imp, forall_and]

namespace Dispatched

/-- A name is handed to at most one validator. -/
theorem unique {x y : Result Validator} (hx : Dispatched config now vs name x)
    (hy : Dispatched config now vs name y) : x = y := by
  cases hx with
  | @added k w hw hsupports hlater =>
    cases hy with
    | @added k' w' hw' hsupports' hlater' =>
      rcases Nat.lt_trichotomy k k' with hk | rfl | hk
      · rw [hlater k' w' hk hw'] at hsupports'
        cases hsupports'
      · rw [Option.some.inj (hw.symm.trans hw')]
      · rw [hlater' k w hk hw] at hsupports
        cases hsupports
    | builtIn hvs | unsupported hvs => exact (hvs.false_of_supports hw hsupports).elim
  | builtIn hvs hname =>
    cases hy with
    | added hw hsupports => exact (hvs.false_of_supports hw hsupports).elim
    | builtIn _ hname' => rw [Format.name_inj.1 (hname.trans hname'.symm)]
    | unsupported _ hnone => exact absurd hname (hnone _)
  | unsupported hvs hnone =>
    cases hy with
    | added hw hsupports => exact (hvs.false_of_supports hw hsupports).elim
    | builtIn _ hname => exact absurd hname (hnone _)
    | unsupported => rfl

/-- One more validator gets the names that it supports, and leaves the others where they were. -/
theorem append {x : Result Validator} (h : Dispatched config now vs name x) (w : Validator) :
    Dispatched config now (vs ++ [w]) name (if w.supports name then .ok w else x) := by
  cases hw : w.supports name with
  | true =>
    refine .added (k := vs.length) (by simp) hw fun j w' hj hw' => ?_
    have hlength := (List.getElem?_eq_some_iff.1 hw').1
    rw [List.length_append, List.length_singleton] at hlength
    omega
  | false =>
    cases h with
    | @added k u hu hsupports hlater =>
      have hk := (List.getElem?_eq_some_iff.1 hu).1
      refine .added ((List.getElem?_append_left hk).trans hu) hsupports fun j w' hj hw' => ?_
      rcases Nat.lt_or_ge j vs.length with hold | hnew
      · exact hlater j w' hj ((List.getElem?_append_left hold).symm.trans hw')
      · rw [List.getElem?_append_right hnew] at hw'
        rw [List.mem_singleton.1 (List.mem_of_getElem? hw')]
        exact hw
    | builtIn hvs hname => exact .builtIn (unclaimed_append.2 ⟨hvs, hw⟩) hname
    | unsupported hvs hnone => exact .unsupported (unclaimed_append.2 ⟨hvs, hw⟩) hnone

/-- With the name of a format, there is a validator. -/
theorem exists_ok (format : Format) {x : Result Validator}
    (h : Dispatched config now vs format.name x) : ∃ w, x = .ok w := by
  cases h with
  | added => exact ⟨_, rfl⟩
  | builtIn => exact ⟨_, rfl⟩
  | unsupported _ hnone => exact absurd rfl (hnone format)

end Dispatched

/-! ## Verifiers -/

namespace Verifier

/-- The verifier of the configuration to which the validators were added one after the other. -/
def built (config : Config) (vs : List Validator) : Verifier :=
  vs.foldl addValidator { config }

/-- The verifier hands each name, and so each registration, to the validator that it should: the
last one of the list that supports it, or else the one that is built in for the format. -/
structure Dispatches (config : Config) (vs : List Validator) (v : Verifier) : Prop where
  validatorFor : ∀ now name x,
    v.validatorFor now name = x ↔ Dispatched config now vs name x
  verify : ∀ now r, ∃ w,
    Dispatched config now vs r.format (.ok w) ∧ v.verify now r = w.validate r
  builtIn : ∀ now r, Unclaimed vs r.format →
    v.verify now r = r.statement.format.verify config now r
  size : v.size = 7 + vs.length
  length : ∀ now, (v.validators now).length = 7 + vs.length

variable {v : Verifier}

/-- The validator that was added last is asked first. -/
theorem validatorFor_addValidator (w : Validator) :
    (v.addValidator w).validatorFor now name =
      if w.supports name then .ok w else v.validatorFor now name := by
  unfold validatorFor validators addValidator
  rw [List.cons_append, List.find?_cons]
  cases w.supports name <;> rfl

/-- A validator that is added counts. -/
theorem size_addValidator (w : Validator) : (v.addValidator w).size = v.size + 1 := by
  simp [size, addValidator, Nat.add_right_comm]

/-- With no validator added, the built-in ones are the ones that are asked. -/
theorem dispatched_nil :
    Dispatched config now [] name (({ config } : Verifier).validatorFor now name) := by
  by_cases hname : ∃ format : Format, format.name = name
  · obtain ⟨format, rfl⟩ := hname
    rw [validatorFor_of_added_eq_nil rfl]
    exact .builtIn nofun rfl
  · have hnone : ∀ format : Format, format.name ≠ name := not_exists.1 hname
    have hfind : (({ config } : Verifier).validators now).find?
        (fun validator => validator.supports name) = none := by
      rw [validators, List.nil_append, List.find?_map, Option.map_eq_none_iff, List.find?_eq_none]
      exact fun format _ => by simpa [Validator.builtIn] using Ne.symm (hnone format)
    rw [validatorFor, hfind]
    exact .unsupported nofun hnone

/-- Adding validators to a verifier that hands on a name as it should leaves one that does. -/
theorem dispatched_foldl {before : List Validator}
    (h : Dispatched config now before name (v.validatorFor now name)) (vs : List Validator) :
    Dispatched config now (before ++ vs) name
      ((vs.foldl addValidator v).validatorFor now name) := by
  induction vs generalizing v before with
  | nil => rwa [List.append_nil]
  | cons w vs ih =>
    rw [List.append_cons, List.foldl_cons]
    refine ih ?_
    rw [validatorFor_addValidator]
    exact h.append w

/-- All validators that are added count. -/
theorem size_foldl (vs : List Validator) :
    (vs.foldl addValidator v).size = v.size + vs.length := by
  induction vs generalizing v with
  | nil => rfl
  | cons w vs ih => rw [List.foldl_cons, ih, size_addValidator, List.length_cons, Nat.add_assoc,
      Nat.add_comm 1]

/-- A verifier that was built by adding validators hands on each name as it should. -/
theorem dispatched_built :
    Dispatched config now vs name ((built config vs).validatorFor now name) :=
  dispatched_foldl dispatched_nil vs

/-- A verifier that was built by adding validators hands everything to the one that it should. -/
theorem dispatches_built (config : Config) (vs : List Validator) :
    (built config vs).Dispatches config vs := by
  have hsize : (built config vs).size = 7 + vs.length := size_foldl vs
  refine ⟨fun now name x => ⟨?_, fun h => dispatched_built.unique h⟩, fun now r => ?_,
    fun now r hvs => ?_, hsize, fun now => (length_validators _ now).trans hsize⟩
  · rintro rfl
    exact dispatched_built
  · have hdispatched : Dispatched config now vs r.format _ := dispatched_built
    obtain ⟨w, hw⟩ := hdispatched.exists_ok r.statement.format
    rw [hw] at hdispatched
    exact ⟨w, hdispatched, by rw [verify, hw]; rfl⟩
  · have hbuiltIn : Dispatched config now vs r.format
        (.ok (.builtIn config now r.statement.format)) := .builtIn hvs rfl
    rw [verify, dispatched_built.unique hbuiltIn]
    exact Validator.builtIn_of_format rfl

/-- Of two validators for a format the later one is asked, and the earlier one keeps the format that
it alone supports. -/
example (first second : Registration → Result Verdict) :
    let v := built {} [⟨fun name => name == "none" || name == "packed", first⟩,
      ⟨fun name => name == "none", second⟩]
    (v.validatorFor now "none").map (·.validate) = .ok second ∧
      (v.validatorFor now "packed").map (·.validate) = .ok first :=
  ⟨rfl, rfl⟩

end Verifier

/-! ## Sessions -/

namespace Session

variable {s : Session} {c : Config}

/-- A default configuration that has been used is the one of the session. -/
theorem config_of_defaults (h : s.defaults = some c) : s.config = c := by
  rw [config, h]
  rfl

/-- Once the default configuration has been used, no action changes it. -/
theorem step_defaults (h : s.defaults = some c) (a : Action) : (s.step a).defaults = some c := by
  cases a with
  | useDefaults => exact congrArg some (config_of_defaults h)
  | setTexts | make | addValidator => exact h

/-- Once the default configuration has been used, no run of actions changes it. -/
theorem run_defaults (h : s.defaults = some c) (history : List Action) :
    (s.run history).defaults = some c := by
  induction history generalizing s with
  | nil => exact h
  | cons a history ih => exact ih (step_defaults h a)

/-- Every verifier of the session was built by adding validators. -/
def OwnBuilt (s : Session) : Prop :=
  ∀ v ∈ s.own, ∃ config vs, v = Verifier.built config vs

/-- Actions build verifiers by adding validators. -/
theorem step_own (h : s.OwnBuilt) (a : Action) : (s.step a).OwnBuilt := by
  cases a with
  | setTexts | useDefaults => exact h
  | make config =>
    intro v hv
    rcases List.mem_append.1 hv with hv | hv
    · exact h v hv
    · exact ⟨config, [], List.mem_singleton.1 hv⟩
  | addValidator index w =>
    intro v hv
    obtain ⟨k, hk⟩ := List.mem_iff_getElem?.1 hv
    rw [step, List.getElem?_modify] at hk
    obtain ⟨u, hu, rfl⟩ := Option.map_eq_some_iff.1 hk
    obtain ⟨config, vs, rfl⟩ := h u (List.mem_of_getElem? hu)
    split
    · exact ⟨config, vs ++ [w], by simp [Verifier.built]⟩
    · exact ⟨config, vs, rfl⟩

/-- Every verifier that a run of actions leaves was built by adding validators. -/
theorem run_own (h : s.OwnBuilt) (history : List Action) : (s.run history).OwnBuilt := by
  induction history generalizing s with
  | nil => exact h
  | cons a history ih => exact ih (step_own h a)

/-- From the first use of the default configuration on, the default verifier answers by that
configuration. -/
theorem verify_after_use (texts : Config.Environment) (before after : List Action) (now : Instant)
    (r : Registration) :
    ((start texts).run (before ++ .useDefaults :: after)).verify now r =
      (Verifier.built ((start texts).run before).config []).verify now r := by
  have hdefaults : ((start texts).run (before ++ .useDefaults :: after)).defaults =
      some ((start texts).run before).config := by
    rw [run, List.foldl_append]
    exact run_defaults rfl after
  rw [verify, config_of_defaults hdefaults]
  rfl

end Session

/-- Whatever validators are added to a verifier, it hands each registration to the last one of them
that supports its format, and else to the built-in one. In a session every verifier is built in this
way, and what happens to them does not reach the default verifier: it answers by the configuration
that was the default one at its first use, with the built-in validators only. -/
theorem Verifier.built_dispatches :
    (∀ config vs, (built config vs).Dispatches config vs) ∧
      ∀ (texts : Config.Environment) (before : List Session.Action),
        (∀ v ∈ ((Session.start texts).run before).own, ∃ config vs, v = built config vs) ∧
        ∀ after now r, ((Session.start texts).run (before ++ .useDefaults :: after)).verify now r =
          (built ((Session.start texts).run before).config []).verify now r := by
  refine ⟨dispatches_built, fun texts before => ⟨?_, ?_⟩⟩
  · exact Session.run_own (s := .start texts) nofun before
  · exact Session.verify_after_use texts before

end Attestation
