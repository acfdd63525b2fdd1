import Attestation.Proofs.Config.Text

/-!
# Settings from texts

Each setting is decided by its own text (`Config.Decides`): a text that gives a value is followed,
and one that does not leaves the default with a single warning, which says whether the text is no
value at all or a number that no duration can be. So the configuration degrades setting by setting
(`Config.ofEnvironment_by_setting`).
-/

namespace Attestation

/-- Seconds make a duration up to 9223372036854775 of them, in either direction. -/
theorem Duration.ofSeconds?_eq_some_iff {n : Int} {d : Duration} :
    ofSeconds? n = some d ↔ n.natAbs ≤ 9223372036854775 ∧ d = seconds n := by
  have hbounds : longestBackwards.nanoseconds ≤ (seconds n).nanoseconds ∧
      (seconds n).nanoseconds ≤ longest.nanoseconds ↔ n.natAbs ≤ 9223372036854775 := by
    simp only [seconds, longest, longestBackwards, milliseconds, nanosecondsPerSecond]
    omega
  unfold ofSeconds?
  rw [Option.ite_none_right_eq_some, hbounds, Option.some.injEq, eq_comm]

/-- A number of seconds is no duration exactly if it is beyond the longest one on either side. -/
theorem Duration.ofSeconds?_eq_none_iff {n : Int} :
    ofSeconds? n = none ↔ 9223372036854775 < n.natAbs := by
  rw [Option.eq_none_iff_forall_ne_some, ← Nat.not_le]
  simp [ofSeconds?_eq_some_iff]

namespace Config

/-! ## Decisions -/

/-- How the text of a setting, which may be missing, decides on its value: a missing text leaves the
default, a text that gives a value is followed, and another one leaves the default with the warning
that it deserves. -/
inductive Decides {α : Type} (Gives : String → α → Prop) (Deserves : String → Warning → Prop)
    (default : α) : Option String → α → List Warning → Prop
  | missing : Decides Gives Deserves default none default []
  | given {text : String} {x : α} : Gives text x →
    Decides Gives Deserves default (some text) x []
  | refused {text : String} {warning : Warning} : Deserves text warning →
    Decides Gives Deserves default (some text) default [warning]

/-- The warning of a text that gives no value. -/
inductive Invalid {α : Type} (Gives : String → α → Prop) (setting : Setting) (text : String) :
    Warning → Prop
  | intro : (∀ x, ¬Gives text x) → Invalid Gives setting text (.invalid setting text)

/-- The text writes the seconds of the duration. -/
def GivesDuration (text : String) (d : Duration) : Prop :=
  ∃ n, WritesInteger text n ∧ n.natAbs ≤ 9223372036854775 ∧ d = .seconds n

/-- The warning of a text that gives no duration. -/
inductive DurationWarning (setting : Setting) (text : String) : Warning → Prop
  | invalid : (∀ n, ¬WritesInteger text n) → DurationWarning setting text (.invalid setting text)
  | outOfRange {n : Int} : WritesInteger text n → 9223372036854775 < n.natAbs →
    DurationWarning setting text (.outOfRange setting n)

/-- The setting that a warning is about. -/
def Warning.setting : Warning → Setting
  | invalid setting _ => setting
  | outOfRange setting _ => setting

/-- The text of the setting is there and gives no value. -/
def Environment.Unusable (texts : Environment) : Setting → Prop
  | .backward => ∃ text, texts.backward = some text ∧ ∀ d, ¬GivesDuration text d
  | .forward => ∃ text, texts.forward = some text ∧ ∀ d, ¬GivesDuration text d
  | .teeOnly => ∃ text, texts.teeOnly = some text ∧ ∀ b, ¬NamesTruth text b

/-- The texts, with the default as it is written where there is none. -/
def Environment.withDefaults (texts : Environment) : Environment where
  backward := texts.backward.getD Setting.backward.defaultText
  forward := texts.forward.getD Setting.forward.defaultText
  teeOnly := texts.teeOnly.getD Setting.teeOnly.defaultText

section
variable {α : Type} {Gives : String → α → Prop} {Deserves : String → Warning → Prop}
  {value? : List Char → Option α} {default x : α} {setting : Setting} {text? : Option String}
  {warnings : List Warning}

/-- A value is read as its text decides. -/
theorem read_eq_iff
    (hgives : ∀ {text x}, value? ((Blank.trim text.toList).map Char.toLower) = some x ↔
      Gives text x) :
    read setting value? default text? = (x, warnings) ↔
      Decides Gives (Invalid Gives setting) default text? x warnings := by
  cases text? with
  | none =>
    refine ⟨fun h => ?_, fun h => ?_⟩
    · cases h
      exact .missing
    · cases h
      rfl
  | some text =>
    cases hvalue : value? ((Blank.trim text.toList).map Char.toLower) with
    | some y =>
      have hy := hgives.1 hvalue
      have hread : read setting value? default (some text) = (y, []) := by rw [read, hvalue]
      rw [hread]
      refine ⟨fun h => ?_, fun h => ?_⟩
      · cases h
        exact .given hy
      · cases h with
        | given hx => rw [Option.some.inj (hvalue.symm.trans (hgives.2 hx))]
        | refused hinvalid =>
          obtain ⟨hno⟩ := hinvalid
          exact absurd hy (hno y)
    | none =>
      have hno (y : α) : ¬Gives text y := fun hy => by cases hvalue.symm.trans (hgives.2 hy)
      have hread : read setting value? default (some text) =
          (default, [.invalid setting text]) := by rw [read, hvalue]
      rw [hread]
      refine ⟨fun h => ?_, fun h => ?_⟩
      · cases h
        exact .refused ⟨hno⟩
      · cases h with
        | given hx => exact absurd hx (hno x)
        | refused hinvalid =>
          cases hinvalid
          rfl

/-- A decision warns once where the text gives no value, and otherwise not. -/
theorem Decides.warns (h : Decides Gives Deserves default text? x warnings)
    (hsetting : ∀ {text warning}, Deserves text warning → warning.setting = setting)
    (hrefused : ∀ {text warning}, Deserves text warning → ∀ x, ¬Gives text x) :
    (warnings.map Warning.setting).Sublist [setting] ∧
      ∀ s, s ∈ warnings.map Warning.setting ↔
        s = setting ∧ ∃ text, text? = some text ∧ ∀ x, ¬Gives text x := by
  cases h with
  | missing => simp
  | given hx =>
    refine ⟨List.nil_sublist _, fun s => ⟨nofun, fun hs => ?_⟩⟩
    obtain ⟨-, _, ⟨⟩, hno⟩ := hs
    exact absurd hx (hno _)
  | refused hwarning =>
    rw [List.map_singleton, hsetting hwarning]
    refine ⟨.refl _, fun s => ⟨fun hs => ?_, fun hs => List.mem_singleton.2 hs.1⟩⟩
    exact ⟨List.mem_singleton.1 hs, _, rfl, hrefused hwarning⟩

end

/-! ## Durations -/

variable {setting : Setting} {text : String} {text? : Option String} {warning : Warning}
  {warnings : List Warning}

/-- A text writes one integer at most. -/
theorem WritesInteger.unique {m n : Int} (hm : WritesInteger text m) (hn : WritesInteger text n) :
    m = n :=
  Option.some.inj ((integer?_eq_some_iff.2 hm).symm.trans (integer?_eq_some_iff.2 hn))

/-- A text with a warning gives no duration. -/
theorem DurationWarning.not_gives (h : DurationWarning setting text warning) (d : Duration) :
    ¬GivesDuration text d := by
  rintro ⟨n, hn, hfits, -⟩
  cases h with
  | invalid hno => exact hno n hn
  | outOfRange hm hout =>
    obtain rfl := hm.unique hn
    omega

/-- A warning about a duration names its setting. -/
theorem DurationWarning.setting_eq (h : DurationWarning setting text warning) :
    warning.setting = setting := by
  cases h <;> rfl

/-- An invalid text gives no value. -/
theorem Invalid.not_gives {α : Type} {Gives : String → α → Prop}
    (h : Invalid Gives setting text warning) : ∀ x, ¬Gives text x := by
  obtain ⟨hno⟩ := h
  exact hno

/-- A warning about an invalid text names its setting. -/
theorem Invalid.setting_eq {α : Type} {Gives : String → α → Prop}
    (h : Invalid Gives setting text warning) : warning.setting = setting := by
  cases h
  rfl

/-- Seconds that are a duration are read as it, with the warnings of the number. -/
theorem readDuration_of_some {default n : Int} {d : Duration}
    (h : read setting integer? default text? = (n, warnings))
    (hd : Duration.ofSeconds? n = some d) :
    readDuration setting default text? = (d, warnings) := by
  rw [readDuration, h]
  dsimp only
  rw [hd]

/-- Seconds that are no duration are replaced by the default, with a warning more. -/
theorem readDuration_of_none {default n : Int}
    (h : read setting integer? default text? = (n, warnings))
    (hd : Duration.ofSeconds? n = none) :
    readDuration setting default text? =
      (.seconds default, warnings ++ [.outOfRange setting n]) := by
  rw [readDuration, h]
  dsimp only
  rw [hd]

/-- A duration is read as its text decides, if the default is one. -/
theorem readDuration_eq_iff {default : Int} {d : Duration}
    (hdefault : default.natAbs ≤ 9223372036854775) :
    readDuration setting default text? = (d, warnings) ↔
      Decides GivesDuration (DurationWarning setting) (.seconds default) text? d warnings := by
  have hfits : Duration.ofSeconds? default = some (.seconds default) :=
    Duration.ofSeconds?_eq_some_iff.2 ⟨hdefault, rfl⟩
  have hread {n : Int} {warnings : List Warning} :
      read setting integer? default text? = (n, warnings) ↔
        Decides WritesInteger (Invalid WritesInteger setting) default text? n warnings :=
    read_eq_iff integer?_eq_some_iff
  constructor
  · intro h
    -- The text is read as a number first; one that is given may still be no duration.
    obtain ⟨⟨n, first⟩, hfirst⟩ : ∃ r, read setting integer? default text? = r := ⟨_, rfl⟩
    cases hread.1 hfirst with
    | missing =>
      cases (readDuration_of_some hfirst hfits).symm.trans h
      exact .missing
    | given hn =>
      cases hd : Duration.ofSeconds? n with
      | some d' =>
        cases (readDuration_of_some hfirst hd).symm.trans h
        exact .given ⟨n, hn, Duration.ofSeconds?_eq_some_iff.1 hd⟩
      | none =>
        cases (readDuration_of_none hfirst hd).symm.trans h
        exact .refused (.outOfRange hn (Duration.ofSeconds?_eq_none_iff.1 hd))
    | refused hinvalid =>
      obtain ⟨hno⟩ := hinvalid
      cases (readDuration_of_some hfirst hfits).symm.trans h
      exact .refused (.invalid hno)
  · intro h
    cases h with
    | missing => exact readDuration_of_some (hread.2 .missing) hfits
    | given hgives =>
      obtain ⟨n, hn, hd⟩ := hgives
      exact readDuration_of_some (hread.2 (.given hn)) (Duration.ofSeconds?_eq_some_iff.2 hd)
    | refused hwarning =>
      cases hwarning with
      | invalid hno => exact readDuration_of_some (hread.2 (.refused ⟨hno⟩)) hfits
      | outOfRange hn hout =>
        exact readDuration_of_none (hread.2 (.given hn)) (Duration.ofSeconds?_eq_none_iff.2 hout)

/-! ## All settings -/

/-- The settings are read one by one, and their warnings stand in the same order. -/
theorem ofEnvironment_eq (texts : Environment) :
    ofEnvironment texts =
      (⟨(readDuration .backward 60 texts.backward).1, (readDuration .forward 0 texts.forward).1,
          (read .teeOnly truth? false texts.teeOnly).1, .acceptAll⟩,
        (readDuration .backward 60 texts.backward).2 ++ (readDuration .forward 0 texts.forward).2 ++
          (read .teeOnly truth? false texts.teeOnly).2) :=
  rfl

/-- Each setting is decided by its own text, and the warnings stand in the order of the settings. -/
theorem ofEnvironment_eq_iff {texts : Environment} {config : Config} :
    ofEnvironment texts = (config, warnings) ↔
      ∃ first second third,
        Decides GivesDuration (DurationWarning .backward) (.seconds 60) texts.backward
          config.backward first ∧
        Decides GivesDuration (DurationWarning .forward) (.seconds 0) texts.forward
          config.forward second ∧
        Decides NamesTruth (Invalid NamesTruth .teeOnly) false texts.teeOnly
          config.teeOnly third ∧
        config.devicePolicy = .acceptAll ∧ warnings = first ++ second ++ third := by
  rw [ofEnvironment_eq]
  constructor
  · intro h
    cases h
    exact ⟨_, _, _, (readDuration_eq_iff (by decide)).1 rfl,
      (readDuration_eq_iff (by decide)).1 rfl, (read_eq_iff truth?_eq_some_iff).1 rfl, rfl, rfl⟩
  · rintro ⟨first, second, third, hbackward, hforward, hteeOnly, hpolicy, rfl⟩
    obtain ⟨backward, forward, teeOnly, policy⟩ := config
    obtain rfl : policy = .acceptAll := hpolicy
    rw [(readDuration_eq_iff (by decide)).2 hbackward, (readDuration_eq_iff (by decide)).2 hforward,
      (read_eq_iff truth?_eq_some_iff).2 hteeOnly]

/-- Warnings are about the settings without a value, once about each and in their order. -/
theorem warnings_ofEnvironment (texts : Environment) :
    ((ofEnvironment texts).2.map Warning.setting).Sublist [.backward, .forward, .teeOnly] ∧
      ∀ setting, setting ∈ (ofEnvironment texts).2.map Warning.setting ↔
        texts.Unusable setting := by
  obtain ⟨⟨config, warnings⟩, h⟩ : ∃ result, ofEnvironment texts = result := ⟨_, rfl⟩
  obtain ⟨first, second, third, hbackward, hforward, hteeOnly, -, rfl⟩ := ofEnvironment_eq_iff.1 h
  obtain ⟨hfirst, hfirst'⟩ := hbackward.warns DurationWarning.setting_eq DurationWarning.not_gives
  obtain ⟨hsecond, hsecond'⟩ := hforward.warns DurationWarning.setting_eq DurationWarning.not_gives
  obtain ⟨hthird, hthird'⟩ := hteeOnly.warns Invalid.setting_eq Invalid.not_gives
  rw [h, List.map_append, List.map_append]
  refine ⟨(hfirst.append hsecond).append hthird, fun setting => ?_⟩
  rw [List.mem_append, List.mem_append, hfirst', hsecond', hthird']
  cases setting <;> simp [Environment.Unusable]

/-- Where a text is missing, one that is decided in the same way may stand. -/
theorem some_getD_eq {α : Type} {f : Option String → α} {written : String}
    (h : f (some written) = f none) (text? : Option String) :
    f (some (text?.getD written)) = f text? := by
  cases text? with
  | none => exact h
  | some text => rfl

/-- The text of a default, as it is written, gives the default. -/
theorem ofEnvironment_withDefaults (texts : Environment) :
    ofEnvironment texts.withDefaults = ofEnvironment texts := by
  have hbackward : readDuration .backward 60 texts.withDefaults.backward =
      readDuration .backward 60 texts.backward := some_getD_eq (by decide) _
  have hforward : readDuration .forward 0 texts.withDefaults.forward =
      readDuration .forward 0 texts.forward := some_getD_eq (by decide) _
  have hteeOnly : read .teeOnly truth? false texts.withDefaults.teeOnly =
      read .teeOnly truth? false texts.teeOnly := some_getD_eq (by decide) _
  rw [ofEnvironment_eq, ofEnvironment_eq, hbackward, hforward, hteeOnly]

/-- The configuration degrades setting by setting, whatever the texts are. A threshold is the number
of seconds that its text writes, white space around it apart, if that is a 64-bit integer and a
duration can be as long, and otherwise its own default, 60 seconds backward and none forward. The
flag of the trusted environment is the truth value that its text names, in letters of any case, and
otherwise false. A setting depends on its own text only. There is exactly one warning about each
setting whose text is there and of no use, which tells one of the two reasons for it, there are no
other warnings, and they are in the order of the settings. The default that is written for a setting
is the one that it keeps. -/
theorem ofEnvironment_by_setting (texts : Environment) :
    (∀ config warnings, ofEnvironment texts = (config, warnings) ↔
      ∃ first second third,
        Decides GivesDuration (DurationWarning .backward) (.seconds 60) texts.backward
          config.backward first ∧
        Decides GivesDuration (DurationWarning .forward) (.seconds 0) texts.forward
          config.forward second ∧
        Decides NamesTruth (Invalid NamesTruth .teeOnly) false texts.teeOnly
          config.teeOnly third ∧
        config.devicePolicy = .acceptAll ∧ warnings = first ++ second ++ third) ∧
    (∀ texts' : Environment,
      (texts'.backward = texts.backward →
        (ofEnvironment texts').1.backward = (ofEnvironment texts).1.backward) ∧
      (texts'.forward = texts.forward →
        (ofEnvironment texts').1.forward = (ofEnvironment texts).1.forward) ∧
      (texts'.teeOnly = texts.teeOnly →
        (ofEnvironment texts').1.teeOnly = (ofEnvironment texts).1.teeOnly)) ∧
    ((ofEnvironment texts).2.map Warning.setting).Sublist [.backward, .forward, .teeOnly] ∧
    (∀ setting, setting ∈ (ofEnvironment texts).2.map Warning.setting ↔ texts.Unusable setting) ∧
    ofEnvironment texts.withDefaults = ofEnvironment texts := by
  obtain ⟨hsublist, hunusable⟩ := warnings_ofEnvironment texts
  refine ⟨fun config warnings => ofEnvironment_eq_iff, fun texts' => ⟨fun h => ?_, fun h => ?_,
    fun h => ?_⟩, hsublist, hunusable, ofEnvironment_withDefaults texts⟩
  · rw [ofEnvironment_eq, ofEnvironment_eq, h]
  · rw [ofEnvironment_eq, ofEnvironment_eq, h]
  · rw [ofEnvironment_eq, ofEnvironment_eq, h]

/-- A threshold with zeros before it and white space around it, another one that is too long for a
duration, and a truth value in capitals. -/
theorem ofEnvironment_by_setting_sample :
    let texts : Environment := ⟨some " +0042\t", some "-9223372036854776", some "TRUE"⟩
    ofEnvironment texts =
        (⟨.seconds 42, .seconds 0, true, .acceptAll⟩, [.outOfRange .forward (-9223372036854776)]) ∧
      texts.Unusable .forward ∧ ¬texts.Unusable .backward ∧ ¬texts.Unusable .teeOnly ∧
      (ofEnvironment ⟨some " +0042\t", none, none⟩).1.backward = .seconds 42 := by
  intro texts
  have hbackward : WritesInteger " +0042\t" 42 := by
    refine ⟨_, ⟨[' '], ['\t'], rfl, fun c hc => ?_, fun c hc => ?_⟩, .plus 4 42, by decide,
      by decide⟩
    · rw [List.mem_singleton.1 hc]
      rfl
    · rw [List.mem_singleton.1 hc]
      rfl
  have hforward : WritesInteger "-9223372036854776" (-9223372036854776) :=
    ⟨_, ⟨[], [], rfl, nofun, nofun⟩, .minus 0 9223372036854776, by decide, by decide⟩
  have hteeOnly : NamesTruth "TRUE" true :=
    ⟨_, ⟨[], [], rfl, nofun, nofun⟩,
      .cons (.inr rfl) (.cons (.inr rfl) (.cons (.inr rfl) (.cons (.inr rfl) .nil)))⟩
  obtain ⟨hsettings, hindependent, -, hunusable, -⟩ := ofEnvironment_by_setting texts
  have h : ofEnvironment texts =
      (⟨.seconds 42, .seconds 0, true, .acceptAll⟩, [.outOfRange .forward (-9223372036854776)]) :=
    (hsettings _ _).2 ⟨[], _, [], .given ⟨42, hbackward, by decide, rfl⟩,
      .refused (.outOfRange hforward (by decide)), .given hteeOnly, rfl, rfl⟩
  have hsame := (hindependent ⟨some " +0042\t", none, none⟩).1 rfl
  rw [h] at hunusable hsame
  exact ⟨h, (hunusable .forward).1 (by decide), mt (hunusable .backward).2 (by decide),
    mt (hunusable .teeOnly).2 (by decide), hsame⟩

end Config

end Attestation
