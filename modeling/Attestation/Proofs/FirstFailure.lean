import Attestation.Proofs.Result

/-!
# Checks in a row

A `Check` says what a step requires and what the step reports where that does not hold. Where
several checks are made in a row, the first one that fails tells the error (`FirstFailure`). A
result performs checks (`Performs`) if it is a success where all of them pass, and that error
otherwise; steps one after the other perform their checks one after the other (`Performs.append`,
`Performs.bind`).
-/

namespace Attestation

/-- What is required, and the error that is reported where it does not hold. -/
structure Check where
  Passes : Prop
  Fails : Error → Prop
  not_fails : ∀ {e}, Passes → ¬Fails e
  unique : ∀ {e e'}, Fails e → Fails e' → e = e'
  decided : Passes ∨ ∃ e, Fails e

namespace Check

/-- The condition holds, or else the error is reported. -/
def require (condition : Prop) (e : Error) : Check where
  Passes := condition
  Fails e' := ¬condition ∧ e' = e
  not_fails h hfails := hfails.1 h
  unique h h' := h.2.trans h'.2.symm
  decided := (Classical.em condition).imp_right fun h => ⟨e, h, rfl⟩

/-- The step succeeds, or else its error is reported. -/
def succeed {α : Type} (x : Result α) : Check where
  Passes := ∃ a, x = .ok a
  Fails e := x = .error e
  not_fails h hfails := by
    obtain ⟨a, rfl⟩ := h
    cases hfails
  unique h h' := Except.error.inj (h.symm.trans h')
  decided := by
    cases x with
    | ok a => exact .inl ⟨a, rfl⟩
    | error e => exact .inr ⟨e, rfl⟩

/-- The step succeeds, and then its value passes the checks. -/
def succeedThen {α : Type} (x : Result α) (checks : α → List Check) : List Check :=
  succeed x :: match x with
    | .ok a => checks a
    | .error _ => []

/-- After a step that succeeds come the checks of its value. -/
theorem succeedThen_of_ok {α : Type} {x : Result α} {a : α} (h : x = .ok a)
    (checks : α → List Check) : succeedThen x checks = succeed x :: checks a := by
  subst h
  rfl

end Check

/-- The error of the first check that fails. -/
inductive FirstFailure : List Check → Error → Prop
  | here {check : Check} {checks : List Check} {e : Error} :
    check.Fails e → FirstFailure (check :: checks) e
  | later {check : Check} {checks : List Check} {e : Error} :
    check.Passes → FirstFailure checks e → FirstFailure (check :: checks) e

variable {check : Check} {checks more : List Check} {e e' : Error}

namespace FirstFailure

/-- Only one failure is the first. -/
theorem unique (h : FirstFailure checks e) (h' : FirstFailure checks e') : e = e' := by
  induction h with
  | here hfails =>
    cases h' with
    | here hfails' => exact Check.unique _ hfails hfails'
    | later hpasses _ => exact absurd hfails (Check.not_fails _ hpasses)
  | later hpasses _ ih =>
    cases h' with
    | here hfails => exact absurd hfails (Check.not_fails _ hpasses)
    | later _ hlater => exact ih hlater

/-- Where a check fails, not all of them pass. -/
theorem not_passes (h : FirstFailure checks e) : ¬∀ check ∈ checks, check.Passes := by
  induction h with
  | here hfails => exact fun hall => Check.not_fails _ (hall _ (List.mem_cons_self ..)) hfails
  | later _ _ ih => exact fun hall => ih fun check hcheck => hall check (.tail _ hcheck)

/-- Where not all checks pass, one of them is the first that fails. -/
theorem exists_iff : (∃ e, FirstFailure checks e) ↔ ¬∀ check ∈ checks, check.Passes := by
  refine ⟨fun ⟨_, h⟩ => h.not_passes, fun h => ?_⟩
  induction checks with
  | nil => exact absurd (List.forall_mem_nil _) h
  | cons check checks ih =>
    rcases check.decided with hpasses | ⟨e, hfails⟩
    · obtain ⟨e, he⟩ := ih fun hall => h (List.forall_mem_cons.2 ⟨hpasses, hall⟩)
      exact ⟨e, .later hpasses he⟩
    · exact ⟨e, .here hfails⟩

/-- What fails first fails first whatever checks come after. -/
theorem append (h : FirstFailure checks e) : FirstFailure (checks ++ more) e := by
  induction h with
  | here hfails => exact .here hfails
  | later hpasses _ ih => exact .later hpasses ih

/-- What fails first after checks that pass is the first failure of all. -/
theorem append_of_passes (hall : ∀ check ∈ checks, check.Passes) (h : FirstFailure more e) :
    FirstFailure (checks ++ more) e := by
  induction checks with
  | nil => exact h
  | cons check checks ih =>
    obtain ⟨hpasses, hall⟩ := List.forall_mem_cons.1 hall
    exact .later hpasses (ih hall)

/-- The first failure of one check is the failure of it. -/
theorem singleton_iff : FirstFailure [check] e ↔ check.Fails e := by
  refine ⟨fun h => ?_, .here⟩
  cases h with
  | here hfails => exact hfails
  | later _ hnone => cases hnone

/-- What fails first in two rows of checks fails first in the one, or in the other one after the one
has passed. -/
theorem append_iff : FirstFailure (checks ++ more) e ↔
    FirstFailure checks e ∨ (∀ check ∈ checks, check.Passes) ∧ FirstFailure more e := by
  refine ⟨fun h => ?_, fun h => h.elim append fun ⟨hall, hmore⟩ => hmore.append_of_passes hall⟩
  induction checks with
  | nil => exact .inr ⟨List.forall_mem_nil _, h⟩
  | cons check checks ih =>
    cases h with
    | here hfails => exact .inl (.here hfails)
    | later hpasses hlater =>
      refine (ih hlater).imp (.later hpasses) fun ⟨hall, hmore⟩ => ?_
      exact ⟨List.forall_mem_cons.2 ⟨hpasses, hall⟩, hmore⟩

/-- The first failure of the checks of a list is that of a member whose predecessors all pass. -/
theorem map_iff {α : Type} {f : α → Check} {xs : List α} : FirstFailure (xs.map f) e ↔
    ∃ front x back, xs = front ++ x :: back ∧ (∀ y ∈ front, (f y).Passes) ∧ (f x).Fails e := by
  refine ⟨fun h => ?_, fun ⟨front, x, back, hxs, hfront, hfails⟩ => ?_⟩
  · induction xs with
    | nil => cases h
    | cons x xs ih =>
      cases h with
      | here hfails => exact ⟨[], x, xs, rfl, List.forall_mem_nil _, hfails⟩
      | later hpasses hlater =>
        obtain ⟨front, y, back, rfl, hfront, hfails⟩ := ih hlater
        exact ⟨x :: front, y, back, rfl, List.forall_mem_cons.2 ⟨hpasses, hfront⟩, hfails⟩
  · rw [hxs, List.map_append, List.map_cons]
    exact (FirstFailure.here hfails).append_of_passes (List.forall_mem_map.2 hfront)

end FirstFailure

/-- The result of a step that makes the checks: a success if all pass, and otherwise the error of
the first one that fails. -/
inductive Performs {α : Type} (checks : List Check) : Result α → Prop
  | ok {a : α} : (∀ check ∈ checks, check.Passes) → Performs checks (.ok a)
  | error {e : Error} : FirstFailure checks e → Performs checks (.error e)

namespace Performs

variable {α β : Type} {x : Result α} {f : α → Result β}

/-- Without checks there is nothing to fail. -/
theorem pure (a : α) : Performs [] (Pure.pure a : Result α) :=
  .ok (List.forall_mem_nil _)

/-- One step after another makes the checks of both; those of the second one may depend on what the
first one gives. -/
theorem append (hx : Performs checks x) (hf : ∀ a, x = .ok a → Performs more (f a)) :
    Performs (checks ++ more) (x >>= f) := by
  cases hx with
  | @ok a hall =>
    show Performs (checks ++ more) (f a)
    have hrest := hf a rfl
    generalize f a = y at hrest ⊢
    cases hrest with
    | ok hmore => exact .ok (List.forall_mem_append.2 ⟨hall, hmore⟩)
    | error hfailure => exact .error (hfailure.append_of_passes hall)
  | error hfailure => exact .error hfailure.append

/-- A step with one check comes before the others. -/
theorem bind_of_ok (hx : Performs [check] x) (hf : ∀ a, x = .ok a → Performs more (f a)) :
    Performs (check :: more) (x >>= f) :=
  hx.append hf

/-- A check that is performed goes before those that are performed on its value. -/
theorem bind (hx : Performs [check] x) (hf : ∀ a, Performs more (f a)) :
    Performs (check :: more) (x >>= f) :=
  hx.bind_of_ok fun a _ => hf a

/-- What performs checks succeeds exactly if all of them pass. -/
theorem exists_ok_iff (h : Performs checks x) :
    (∃ a, x = .ok a) ↔ ∀ check ∈ checks, check.Passes := by
  cases h with
  | ok hall => exact iff_of_true ⟨_, rfl⟩ hall
  | error hfailure => exact iff_of_false nofun hfailure.not_passes

/-- What performs checks fails with the first failure of them. -/
theorem eq_error_iff (h : Performs checks x) : x = .error e ↔ FirstFailure checks e := by
  cases h with
  | ok hall => exact iff_of_false nofun fun hfailure => hfailure.not_passes hall
  | error hfailure =>
    refine ⟨fun h => ?_, fun h => ?_⟩
    · cases h
      exact hfailure
    · rw [hfailure.unique h]

/-- A check fails exactly where the step does. -/
theorem exists_failure_iff (h : Performs checks x) :
    (∃ e, FirstFailure checks e) ↔ ¬∃ a, x = .ok a := by
  rw [FirstFailure.exists_iff, h.exists_ok_iff]

/-! ## Single checks -/

/-- A check that passes. -/
theorem of_passes {a : α} (h : check.Passes) : Performs [check] (.ok a : Result α) :=
  .ok (List.forall_mem_singleton.2 h)

/-- A check that fails. -/
theorem of_fails (h : check.Fails e) : Performs [check] (.error e : Result α) :=
  .error (.here h)

/-- What performs one check succeeds and the check passes, or fails as the check does. -/
theorem single (h : Performs [check] x) :
    (∃ a, x = .ok a ∧ check.Passes) ∨ ∃ e, x = .error e ∧ check.Fails e := by
  cases h with
  | ok hall => exact .inl ⟨_, rfl, List.forall_mem_singleton.1 hall⟩
  | error hfailure => exact .inr ⟨_, rfl, FirstFailure.singleton_iff.1 hfailure⟩

/-- A step performs the check that it succeeds. -/
theorem succeed (x : Result α) : Performs [.succeed x] x := by
  cases x with
  | ok a => exact .of_passes ⟨a, rfl⟩
  | error e => exact .of_fails rfl

/-- A condition is checked where it is ensured. -/
theorem ensure {condition : Bool} {p : Prop} (h : condition = true ↔ p) :
    Performs [.require p e] (ensure condition e) := by
  cases condition with
  | true => exact .of_passes (h.1 rfl)
  | false => exact .of_fails ⟨fun hp => Bool.false_ne_true (h.2 hp), rfl⟩

/-- What may be missing is checked where it is asked for. -/
theorem orError {o : Option α} {p : Prop} (h : o.isSome = true ↔ p) :
    Performs [.require p e] (orError e o) := by
  cases o with
  | some a => exact .of_passes (h.1 rfl)
  | none => exact .of_fails ⟨fun hp => Bool.false_ne_true (h.2 hp), rfl⟩

/-- A step whose value the other checks are about. -/
theorem succeedThen {checks : α → List Check} (hf : ∀ a, x = .ok a → Performs (checks a) (f a)) :
    Performs (Check.succeedThen x checks) (x >>= f) := by
  cases x with
  | ok a =>
    refine (succeed (.ok a)).bind_of_ok fun b hb => ?_
    cases hb
    exact hf a rfl
  | error e =>
    refine (succeed (.error e)).bind_of_ok fun b hb => ?_
    cases hb

end Performs

end Attestation
