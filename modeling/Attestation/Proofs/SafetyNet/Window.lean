import Attestation.Proofs.Result
import Attestation.SafetyNet.Response

/-!
# The window of timestamps

A timestamp is accepted if its instant lies in the window from the present less one duration to the
present and another one, where an end of the window without a date does not count
(`SafetyNet.checkTimestamp_eq_ok`). Longer durations keep what is accepted as long as an end without
a date lies beyond the calendar on its own side. A beginning after all dates, or an end before them,
leaves the window open where it should be empty, and longer durations close it again
(`SafetyNet.checkTimestamp_widen_iff`, `SafetyNet.checkTimestamp_shortest`).
-/

namespace Attestation

/-! ## Durations and instants -/

/-- A configuration can hold the duration. -/
def Duration.Bounded (d : Duration) : Prop :=
  Duration.longestBackwards.nanoseconds ≤ d.nanoseconds ∧
    d.nanoseconds ≤ Duration.longest.nanoseconds

instance (d : Duration) : Decidable d.Bounded :=
  inferInstanceAs (Decidable (_ ∧ _))

/-- Durations are ordered from the longest ones backwards to the longest ones forwards. -/
instance : LE Duration :=
  ⟨fun a b => a.nanoseconds ≤ b.nanoseconds⟩

instance (a b : Duration) : Decidable (a ≤ b) :=
  inferInstanceAs (Decidable (a.nanoseconds ≤ b.nanoseconds))

theorem Duration.le_def {a b : Duration} : a ≤ b ↔ a.nanoseconds ≤ b.nanoseconds :=
  Iff.rfl

namespace Instant

/-- What holds of the instant a duration later needs that instant to have a date. -/
theorem any_add? {t : Instant} {d : Duration} {p : Instant → Bool} :
    (t.add? d).any p = true ↔
      Representable ⟨t.nanoseconds + d.nanoseconds⟩ ∧ p ⟨t.nanoseconds + d.nanoseconds⟩ = true := by
  unfold add?
  dsimp only
  split <;> simp [*]

end Instant

namespace SafetyNet

/-! ## The window -/

/-- The instant lies in the window around the present: not before its beginning nor after its end,
as far as these have dates. -/
structure Within (now : Instant) (backward forward : Duration) (t : Instant) : Prop where
  notBefore : Instant.Representable ⟨now.nanoseconds - backward.nanoseconds⟩ →
    now.nanoseconds - backward.nanoseconds ≤ t.nanoseconds
  notAfter : Instant.Representable ⟨now.nanoseconds + forward.nanoseconds⟩ →
    t.nanoseconds ≤ now.nanoseconds + forward.nanoseconds

/-- A timestamp has an instant if it is there and has a date. -/
theorem instant?_eq_some {timestamp : Option Int} {t : Instant} :
    instant? timestamp = some t ↔
      ∃ ms, timestamp = some ms ∧ t = .ofMilliseconds ms ∧ t.Representable := by
  cases timestamp with
  | none => simp [instant?]
  | some ms =>
    simp only [instant?, Option.bind_eq_bind, Option.bind_some, Option.some.injEq, exists_eq_left']
    split
    · rename_i hdate
      rw [Option.some.injEq, eq_comm]
      exact (and_iff_left_of_imp fun h => h ▸ hdate).symm
    · rename_i hdate
      refine ⟨nofun, fun h => ?_⟩
      obtain ⟨rfl, h⟩ := h
      exact absurd h hdate

variable {now t : Instant} {backward forward : Duration} {timestamp : Option Int}

/-- A timestamp is accepted if it has a date, which lies in the window. -/
theorem checkTimestamp_eq_ok {u : Unit} :
    checkTimestamp now backward forward timestamp = .ok u ↔
      ∃ t, instant? timestamp = some t ∧ Within now backward forward t := by
  unfold checkTimestamp
  split
  · rename_i ms t ht
    have hbefore : (now.add? backward.neg).any (t.nanoseconds < ·.nanoseconds) = true ↔
        ¬(Instant.Representable ⟨now.nanoseconds - backward.nanoseconds⟩ →
          now.nanoseconds - backward.nanoseconds ≤ t.nanoseconds) := by
      rw [Instant.any_add?, Classical.not_imp, Int.not_le, decide_eq_true_iff]
      rfl
    have hafter : (now.add? forward).any (·.nanoseconds < t.nanoseconds) = true ↔
        ¬(Instant.Representable ⟨now.nanoseconds + forward.nanoseconds⟩ →
          t.nanoseconds ≤ now.nanoseconds + forward.nanoseconds) := by
      rw [Instant.any_add?, Classical.not_imp, Int.not_le, decide_eq_true_iff]
    split
    · rename_i h
      refine ⟨nofun, fun hwithin => ?_⟩
      obtain ⟨_, ht', hwithin⟩ := hwithin
      cases ht.symm.trans ht'
      exact absurd hwithin.notBefore (hbefore.1 h)
    · rename_i hnotBefore
      split
      · rename_i h
        refine ⟨nofun, fun hwithin => ?_⟩
        obtain ⟨_, ht', hwithin⟩ := hwithin
        cases ht.symm.trans ht'
        exact absurd hwithin.notAfter (hafter.1 h)
      · rename_i hnotAfter
        refine ⟨fun _ => ⟨t, ht, ?_, ?_⟩, fun _ => rfl⟩
        · exact Classical.not_not.1 (mt hbefore.2 hnotBefore)
        · exact Classical.not_not.1 (mt hafter.2 hnotAfter)
  · rename_i hmissing
    refine ⟨nofun, fun hwithin => ?_⟩
    obtain ⟨t, ht, -⟩ := hwithin
    obtain ⟨ms, hms, -⟩ := instant?_eq_some.1 ht
    exact absurd ht (hmissing ms t hms)

/-! ## Longer durations -/

/-- The window grows with the durations, unless it begins after the calendar or ends before it. The
first instant of the calendar is not after any end that has a date. -/
theorem Within.mono {backward' forward' : Duration} (h : Within now backward forward t)
    (ht : t.Representable) (hbackward : backward ≤ backward') (hforward : forward ≤ forward')
    (hstart : now.nanoseconds - backward.nanoseconds ≤ Instant.latest)
    (hend : Instant.earliest ≤ now.nanoseconds + forward.nanoseconds ∨
      t.nanoseconds = Instant.earliest) :
    Within now backward' forward' t := by
  rw [Duration.le_def] at hbackward hforward
  refine ⟨fun hdate => ?_, fun hdate => ?_⟩
  · by_cases hbeginning : Instant.Representable ⟨now.nanoseconds - backward.nanoseconds⟩
    · have := h.notBefore hbeginning
      omega
    · have : now.nanoseconds - backward.nanoseconds < Instant.earliest :=
        Int.not_le.1 fun h => hbeginning ⟨h, hstart⟩
      have := ht.1
      omega
  · rcases hend with hend | hfirst
    · by_cases hending : Instant.Representable ⟨now.nanoseconds + forward.nanoseconds⟩
      · have := h.notAfter hending
        omega
      · have : Instant.latest < now.nanoseconds + forward.nanoseconds :=
          Int.not_le.1 fun h => hending ⟨hend, h⟩
        have := ht.2
        omega
    · rw [hfirst]
      exact hdate.1

/-- A window that begins with the last instant of the calendar has no timestamp in it, as that
instant is not a whole number of milliseconds. -/
theorem not_within_latest {ms : Int} (hdate : (Instant.ofMilliseconds ms).Representable) :
    ¬Within now ⟨now.nanoseconds - Instant.latest⟩ forward (.ofMilliseconds ms) := by
  intro h
  have hlast : Instant.Representable ⟨Instant.latest⟩ := by decide
  have hbefore := h.notBefore (by rwa [Int.sub_sub_self])
  have hafter := hdate.2
  dsimp only [Instant.ofMilliseconds, Instant.latest] at hbefore hafter
  omega

/-- A window that ends with the first instant of the calendar has only that one in it. -/
theorem Within.eq_earliest (ht : t.Representable)
    (h : Within now backward ⟨Instant.earliest - now.nanoseconds⟩ t) :
    t.nanoseconds = Instant.earliest := by
  have hfirst : Instant.Representable ⟨Instant.earliest⟩ := by decide
  have hending : now.nanoseconds + (Instant.earliest - now.nanoseconds) = Instant.earliest := by
    omega
  have hafter := h.notAfter (by rwa [hending])
  have hbefore := ht.1
  dsimp only at hafter
  omega

/-- A configuration can hold the durations between the present and another instant with a date. -/
theorem bounded_of_representable {n : Int} (hnow : now.Representable)
    (hn : Instant.Representable ⟨n⟩) :
    Duration.Bounded ⟨now.nanoseconds - n⟩ ∧ Duration.Bounded ⟨n - now.nanoseconds⟩ := by
  obtain ⟨hfirst, hlast⟩ := hnow
  obtain ⟨hfirst', hlast'⟩ := hn
  dsimp only [Instant.earliest, Instant.latest] at hfirst hlast hfirst' hlast'
  simp only [Duration.Bounded, Duration.longestBackwards, Duration.longest, Duration.milliseconds]
  omega

/-- An accepted timestamp stays accepted with all longer durations if and only if the window does
not begin after the calendar, nor end before it, which only a timestamp of the first instant of the
calendar survives. Durations that are not negative make no such window. -/
theorem checkTimestamp_widen_iff (hnow : now.Representable) (hbackward : backward.Bounded)
    (hforward : forward.Bounded) (h : checkTimestamp now backward forward timestamp = .ok ()) :
    ((∀ backward' forward' : Duration, backward'.Bounded → forward'.Bounded →
        backward ≤ backward' → forward ≤ forward' →
        checkTimestamp now backward' forward' timestamp = .ok ()) ↔
      now.nanoseconds - backward.nanoseconds ≤ Instant.latest ∧
        (Instant.earliest ≤ now.nanoseconds + forward.nanoseconds ∨
          instant? timestamp = some ⟨Instant.earliest⟩)) ∧
    (0 ≤ backward.nanoseconds → 0 ≤ forward.nanoseconds →
      ∀ backward' forward' : Duration, backward ≤ backward' → forward ≤ forward' →
        checkTimestamp now backward' forward' timestamp = .ok ()) := by
  obtain ⟨t, ht, hwithin⟩ := checkTimestamp_eq_ok.1 h
  obtain ⟨ms, rfl, rfl, hdate⟩ := instant?_eq_some.1 ht
  have hfirst : instant? (some ms) = some ⟨Instant.earliest⟩ ↔
      (Instant.ofMilliseconds ms).nanoseconds = Instant.earliest := by
    rw [ht, Option.some.injEq, Instant.mk.injEq]
  have hwithin_of_ok {b f : Duration} (hok : checkTimestamp now b f (some ms) = .ok ()) :
      Within now b f (.ofMilliseconds ms) := by
    obtain ⟨_, ht', hwithin'⟩ := checkTimestamp_eq_ok.1 hok
    cases ht.symm.trans ht'
    exact hwithin'
  rw [hfirst]
  refine ⟨⟨fun hall => ⟨?_, ?_⟩, fun hends backward' forward' _ _ hb hf => ?_⟩,
    fun hb₀ hf₀ backward' forward' hb hf => ?_⟩
  · -- If the window begins after the calendar, with some longer durations it begins in it.
    refine Int.not_lt.1 fun hstart => ?_
    have hlonger : backward ≤ ⟨now.nanoseconds - Instant.latest⟩ :=
      Duration.le_def.2 (by dsimp only; omega)
    have hheld := (bounded_of_representable hnow (n := Instant.latest) (by decide)).1
    have hok := hall _ forward hheld hforward hlonger (Int.le_refl _)
    exact not_within_latest hdate (hwithin_of_ok hok)
  -- If it ends before the calendar, with a longer duration it ends at its first instant.
  · by_cases hend : Instant.earliest ≤ now.nanoseconds + forward.nanoseconds
    · exact .inl hend
    · have hlonger : forward ≤ ⟨Instant.earliest - now.nanoseconds⟩ :=
        Duration.le_def.2 (by dsimp only; omega)
      have hheld := (bounded_of_representable hnow (n := Instant.earliest) (by decide)).2
      have hok := hall backward _ hbackward hheld (Int.le_refl _) hlonger
      exact .inr ((hwithin_of_ok hok).eq_earliest hdate)
  · exact checkTimestamp_eq_ok.2 ⟨_, ht, hwithin.mono hdate hb hf hends.1 hends.2⟩
  · obtain ⟨hnowFirst, hnowLast⟩ := hnow
    exact checkTimestamp_eq_ok.2 ⟨_, ht, hwithin.mono hdate hb hf (by omega) (.inl (by omega))⟩

/-- A timestamp of a second ago, with the durations that a configuration has by default. -/
theorem checkTimestamp_widen_iff_default :
    let now : Instant := .ofMilliseconds 1748736000000
    now.Representable ∧ (Duration.seconds 60).Bounded ∧ (Duration.seconds 0).Bounded ∧
      checkTimestamp now (.seconds 60) (.seconds 0) (some 1748735999000) = .ok () ∧
      ∀ backward forward : Duration, .seconds 60 ≤ backward → .seconds 0 ≤ forward →
        checkTimestamp now backward forward (some 1748735999000) = .ok () := by
  intro now
  have hnow : now.Representable := by decide
  have hminute : (Duration.seconds 60).Bounded := by decide
  have hnothing : (Duration.seconds 0).Bounded := by decide
  have hok : checkTimestamp now (.seconds 60) (.seconds 0) (some 1748735999000) = .ok () := by
    decide
  obtain ⟨-, hwiden⟩ := checkTimestamp_widen_iff hnow hminute hnothing hok
  exact ⟨hnow, hminute, hnothing, hok, hwiden (by decide) (by decide)⟩

/-- With the shortest duration the window begins after the calendar, and a timestamp of half a
century ago is accepted. It is too old with a minute, which is longer. -/
theorem checkTimestamp_shortest :
    let now : Instant := .ofMilliseconds 1748736000000
    now.Representable ∧ Duration.longestBackwards.Bounded ∧ (Duration.seconds 60).Bounded ∧
      Duration.longestBackwards ≤ .seconds 60 ∧
      checkTimestamp now .longestBackwards (.seconds 0) (some 0) = .ok () ∧
      checkTimestamp now (.seconds 60) (.seconds 0) (some 0) =
        .error (.timestampInvalid (.tooOld 0)) := by
  decide

end SafetyNet

end Attestation
