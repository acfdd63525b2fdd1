import Attestation.Proofs.SafetyNet.Window

/-!
# The window in unbounded numbers

Where the durations are not negative, an end of the window that has no date lies beyond the calendar
on its own side: the beginning before all dates, the end after them
(`SafetyNet.notBefore_of_overflow`, `SafetyNet.notAfter_of_overflow`). So leaving such an end open
is what the comparison of unbounded numbers does with it, and a timestamp is accepted or refused as
these numbers tell (`SafetyNet.checkTimestamp_exact`).
-/

namespace Attestation.SafetyNet

variable {now : Instant} {backward forward : Duration} {timestamp : Option Int} {ms : Int}

/-- The timestamp has a date and lies between the ends of the window, both included, in nanoseconds
without a bound. -/
structure InWindow (now : Instant) (backward forward : Duration) (ms : Int) : Prop where
  date : (Instant.ofMilliseconds ms).Representable
  notBefore : now.nanoseconds - backward.nanoseconds ≤ ms * 1000000
  notAfter : ms * 1000000 ≤ now.nanoseconds + forward.nanoseconds

/-- Why a timestamp is refused: there is none, it has no date, or it lies beyond one of the ends of
the window, in nanoseconds without a bound. -/
inductive Refused (now : Instant) (backward forward : Duration) :
    Option Int → TimestampFault → Prop
  | absent : Refused now backward forward none .missing
  | noDate {ms : Int} : ¬(Instant.ofMilliseconds ms).Representable →
    Refused now backward forward (some ms) .missing
  | tooOld {ms : Int} : (Instant.ofMilliseconds ms).Representable →
    ms * 1000000 < now.nanoseconds - backward.nanoseconds →
    Refused now backward forward (some ms) (.tooOld ms)
  | inFuture {ms : Int} : (Instant.ofMilliseconds ms).Representable →
    now.nanoseconds + forward.nanoseconds < ms * 1000000 →
    Refused now backward forward (some ms) (.inFuture ms)

/-! ## Ends without a date -/

/-- A beginning of the window that has no date is before all dates. -/
theorem notBefore_of_overflow (hnow : now.Representable) (hbackward : 0 ≤ backward.nanoseconds)
    {t : Instant} (ht : t.Representable)
    (hoverflow : ¬Instant.Representable ⟨now.nanoseconds - backward.nanoseconds⟩) :
    now.nanoseconds - backward.nanoseconds ≤ t.nanoseconds := by
  have hlast : now.nanoseconds - backward.nanoseconds ≤ Instant.latest := by
    have := hnow.2
    omega
  have hfirst : now.nanoseconds - backward.nanoseconds < Instant.earliest :=
    Int.not_le.1 fun h => hoverflow ⟨h, hlast⟩
  exact Int.le_trans (Int.le_of_lt hfirst) ht.1

/-- An end of the window that has no date is after all dates. -/
theorem notAfter_of_overflow (hnow : now.Representable) (hforward : 0 ≤ forward.nanoseconds)
    {t : Instant} (ht : t.Representable)
    (hoverflow : ¬Instant.Representable ⟨now.nanoseconds + forward.nanoseconds⟩) :
    t.nanoseconds ≤ now.nanoseconds + forward.nanoseconds := by
  have hfirst : Instant.earliest ≤ now.nanoseconds + forward.nanoseconds := by
    have := hnow.1
    omega
  have hlast : Instant.latest < now.nanoseconds + forward.nanoseconds :=
    Int.not_le.1 fun h => hoverflow ⟨hfirst, h⟩
  exact Int.le_trans ht.2 (Int.le_of_lt hlast)

/-! ## The check -/

/-- Of a timestamp that has a date, the check compares the unbounded numbers. -/
theorem checkTimestamp_of_date (hnow : now.Representable) (hbackward : 0 ≤ backward.nanoseconds)
    (hforward : 0 ≤ forward.nanoseconds) (hdate : (Instant.ofMilliseconds ms).Representable) :
    checkTimestamp now backward forward (some ms) =
      if ms * 1000000 < now.nanoseconds - backward.nanoseconds then
        .error (.timestampInvalid (.tooOld ms))
      else if now.nanoseconds + forward.nanoseconds < ms * 1000000 then
        .error (.timestampInvalid (.inFuture ms))
      else .ok () := by
  have hinstant : instant? (some ms) = some (.ofMilliseconds ms) :=
    instant?_eq_some.2 ⟨ms, rfl, rfl, hdate⟩
  have hstart : (now.add? backward.neg).any
      ((Instant.ofMilliseconds ms).nanoseconds < ·.nanoseconds) = true ↔
        ms * 1000000 < now.nanoseconds - backward.nanoseconds := by
    rw [Instant.any_add?, decide_eq_true_iff]
    refine ⟨fun h => h.2, fun h => ⟨?_, h⟩⟩
    refine Classical.not_not.1 fun hoverflow => ?_
    exact Int.not_le.2 h (notBefore_of_overflow hnow hbackward hdate hoverflow)
  have hend : (now.add? forward).any
      (·.nanoseconds < (Instant.ofMilliseconds ms).nanoseconds) = true ↔
        now.nanoseconds + forward.nanoseconds < ms * 1000000 := by
    rw [Instant.any_add?, decide_eq_true_iff]
    refine ⟨fun h => h.2, fun h => ⟨?_, h⟩⟩
    refine Classical.not_not.1 fun hoverflow => ?_
    exact Int.not_le.2 h (notAfter_of_overflow hnow hforward hdate hoverflow)
  unfold checkTimestamp
  rw [hinstant]
  simp only [hstart, hend]

/-- A timestamp without a date is refused as if it were missing. -/
theorem checkTimestamp_of_no_date (hdate : ¬(Instant.ofMilliseconds ms).Representable) :
    checkTimestamp now backward forward (some ms) = .error (.timestampInvalid .missing) := by
  have hinstant : instant? (some ms) = none := if_neg hdate
  unfold checkTimestamp
  rw [hinstant]

/-- A timestamp in the window is accepted. -/
theorem checkTimestamp_of_inWindow (hnow : now.Representable)
    (hbackward : 0 ≤ backward.nanoseconds) (hforward : 0 ≤ forward.nanoseconds)
    (h : InWindow now backward forward ms) :
    checkTimestamp now backward forward (some ms) = .ok () := by
  rw [checkTimestamp_of_date hnow hbackward hforward h.date, if_neg (Int.not_lt.2 h.notBefore),
    if_neg (Int.not_lt.2 h.notAfter)]

/-- A timestamp is refused for the reason that there is. -/
theorem checkTimestamp_of_refused (hnow : now.Representable)
    (hbackward : 0 ≤ backward.nanoseconds) (hforward : 0 ≤ forward.nanoseconds)
    {fault : TimestampFault} (h : Refused now backward forward timestamp fault) :
    checkTimestamp now backward forward timestamp = .error (.timestampInvalid fault) := by
  cases h with
  | absent => rfl
  | noDate hdate => exact checkTimestamp_of_no_date hdate
  | tooOld hdate hold =>
    rw [checkTimestamp_of_date hnow hbackward hforward hdate, if_pos hold]
  | inFuture hdate hlate =>
    rw [checkTimestamp_of_date hnow hbackward hforward hdate, if_neg (by omega), if_pos hlate]

/-- The numbers tell for every timestamp whether it is accepted, and if not, why. -/
theorem inWindow_or_refused (now : Instant) (backward forward : Duration)
    (timestamp : Option Int) :
    (∃ ms, timestamp = some ms ∧ InWindow now backward forward ms) ∨
      ∃ fault, Refused now backward forward timestamp fault := by
  cases timestamp with
  | none => exact .inr ⟨_, .absent⟩
  | some ms =>
    by_cases hdate : (Instant.ofMilliseconds ms).Representable
    · by_cases hold : ms * 1000000 < now.nanoseconds - backward.nanoseconds
      · exact .inr ⟨_, .tooOld hdate hold⟩
      by_cases hlate : now.nanoseconds + forward.nanoseconds < ms * 1000000
      · exact .inr ⟨_, .inFuture hdate hlate⟩
      · exact .inl ⟨ms, rfl, hdate, Int.not_lt.1 hold, Int.not_lt.1 hlate⟩
    · exact .inr ⟨_, .noDate hdate⟩

/-- With durations that are not negative, a timestamp is accepted exactly if it has a date and lies
in the window, of which both ends are computed without a bound and belong to it. Otherwise it is
refused as an invalid timestamp, for the reason that these numbers tell. -/
theorem checkTimestamp_exact (hnow : now.Representable) (hbackward : 0 ≤ backward.nanoseconds)
    (hforward : 0 ≤ forward.nanoseconds) :
    (checkTimestamp now backward forward timestamp = .ok () ↔
      ∃ ms, timestamp = some ms ∧ InWindow now backward forward ms) ∧
    ∀ e, checkTimestamp now backward forward timestamp = .error e ↔
      ∃ fault, Refused now backward forward timestamp fault ∧ e = .timestampInvalid fault := by
  rcases inWindow_or_refused now backward forward timestamp with ⟨ms, rfl, hwindow⟩ | ⟨fault, h⟩
  · have hok := checkTimestamp_of_inWindow hnow hbackward hforward hwindow
    refine ⟨iff_of_true hok ⟨ms, rfl, hwindow⟩, fun e => ⟨fun he => ?_, fun he => ?_⟩⟩
    · cases hok.symm.trans he
    · obtain ⟨fault, hrefused, -⟩ := he
      cases hok.symm.trans (checkTimestamp_of_refused hnow hbackward hforward hrefused)
  · have herror := checkTimestamp_of_refused hnow hbackward hforward h
    refine ⟨⟨fun hok => ?_, fun hok => ?_⟩, fun e => ⟨fun he => ?_, fun he => ?_⟩⟩
    · cases herror.symm.trans hok
    · obtain ⟨ms, rfl, hwindow⟩ := hok
      exact checkTimestamp_of_inWindow hnow hbackward hforward hwindow
    · cases herror.symm.trans he
      exact ⟨fault, h, rfl⟩
    · obtain ⟨fault', hrefused, rfl⟩ := he
      exact checkTimestamp_of_refused hnow hbackward hforward hrefused

/-- With the longest durations, none of the ends of the window has a date, and a timestamp of 1970
is accepted. With the longest one and nothing, only the beginning has none, and a timestamp of a
millisecond later than the present is refused. -/
theorem checkTimestamp_exact_longest :
    let now : Instant := .ofMilliseconds 1748736000000
    now.Representable ∧ 0 ≤ Duration.longest.nanoseconds ∧ 0 ≤ (Duration.seconds 0).nanoseconds ∧
      InWindow now .longest .longest 0 ∧
      checkTimestamp now .longest .longest (some 0) = .ok () ∧
      Refused now .longest (.seconds 0) (some 1748736000001) (.inFuture 1748736000001) ∧
      checkTimestamp now .longest (.seconds 0) (some 1748736000001) =
        .error (.timestampInvalid (.inFuture 1748736000001)) := by
  intro now
  have hnow : now.Representable := by decide
  have hlongest : 0 ≤ Duration.longest.nanoseconds := by decide
  have hnothing : 0 ≤ (Duration.seconds 0).nanoseconds := by decide
  have hwindow : InWindow now .longest .longest 0 := ⟨by decide, by decide, by decide⟩
  have hrefused : Refused now .longest (.seconds 0) (some 1748736000001)
      (.inFuture 1748736000001) := .inFuture (by decide) (by decide)
  have hok := (checkTimestamp_exact hnow hlongest hlongest).1.2 ⟨0, rfl, hwindow⟩
  have herror := ((checkTimestamp_exact hnow hlongest hnothing).2 _).2 ⟨_, hrefused, rfl⟩
  exact ⟨hnow, hlongest, hnothing, hwindow, hok, hrefused, herror⟩

end Attestation.SafetyNet
