import Attestation.Duration
import Attestation.Tpm.Device

/-!
# Configuration

What a relying party decides about verification: how far from the present the timestamp of a
response may lie, whether the authorizations of an Android key count only when the trusted
environment enforces them, and which TPM devices are welcome. `Config.ofEnvironment` reads three of
these settings from texts. Each setting depends on its own text alone, and a text that cannot be
used leaves the default and gives one warning. White space is that of the Unicode property
`White_Space`.
-/

namespace Attestation

/-! ## White space -/

namespace Blank

/-- A character of white space. -/
def isBlank (c : Char) : Bool :=
  let n := c.toNat
  (0x09 ≤ n && n ≤ 0x0d) || n == 0x20 || n == 0x85 || n == 0xa0 || n == 0x1680 ||
    (0x2000 ≤ n && n ≤ 0x200a) || n == 0x2028 || n == 0x2029 || n == 0x202f || n == 0x205f ||
    n == 0x3000

/-- The characters without the white space at either end. -/
def trim (s : List Char) : List Char :=
  ((s.dropWhile isBlank).reverse.dropWhile isBlank).reverse

end Blank

/-! ## Settings -/

/-- How registrations are verified. -/
structure Config where
  /-- How long before the present a timestamp may lie. -/
  backward : Duration := .seconds 60
  /-- How long after the present a timestamp may lie. -/
  forward : Duration := .seconds 0
  /-- Origin and purpose of an Android key count only when the trusted environment enforces them. -/
  teeOnly : Bool := false
  devicePolicy : TpmDevicePolicy := .acceptAll

namespace Config

/-! ## Texts -/

/-- The texts of the settings, as far as they are set. -/
structure Environment where
  backward : Option String := none
  forward : Option String := none
  teeOnly : Option String := none

/-- A setting that a text may give. -/
inductive Setting where
  | backward
  | forward
  | teeOnly
  deriving DecidableEq, Repr

/-- The name of the variable that holds the text of a setting. -/
def Setting.variableName : Setting → String
  | backward => "ATTESTATION_SAFETYNET_BACKWARD_THRESHOLD_SECS"
  | forward => "ATTESTATION_SAFETYNET_FORWARD_THRESHOLD_SECS"
  | teeOnly => "ATTESTATION_ANDROID_KEY_TEE_ENFORCED_ONLY"

/-- The default of a setting, as it is written. -/
def Setting.defaultText : Setting → String
  | backward => "60"
  | forward => "0"
  | teeOnly => "false"

/-- Why a setting keeps its default although its text is set. -/
inductive Warning where
  /-- The text is no value of the setting. -/
  | invalid (setting : Setting) (text : String)
  /-- The seconds are more than a duration can be. -/
  | outOfRange (setting : Setting) (seconds : Int)
  deriving DecidableEq, Repr

/-- The warning, in words. -/
def Warning.message : Warning → String
  | invalid setting text =>
    s!"Invalid {setting.variableName}: {text}. Using default '{setting.defaultText}'"
  | outOfRange setting seconds =>
    setting.variableName ++ s!" of {seconds}s is out of range. Using default " ++
      s!"'{setting.defaultText}'"

/-- The number that decimal digits write, of which there is at least one. -/
def digits? (s : List Char) : Option Nat :=
  if s ≠ [] ∧ s.all Char.isDigit then
    some (s.foldl (fun n c => 10 * n + (c.toNat - '0'.toNat)) 0)
  else none

/-- The integer of 64 bits that a sign, which may be left out, and digits write. -/
def integer? (s : List Char) : Option Int := do
  let n : Int ← match s with
    | '+' :: s => (digits? s).map Int.ofNat
    | '-' :: s => (digits? s).map fun n => -Int.ofNat n
    | s => (digits? s).map Int.ofNat
  if -2 ^ 63 ≤ n ∧ n < 2 ^ 63 then some n else none

/-- The truth value that a word in lower case names. -/
def truth? (s : List Char) : Option Bool :=
  if s = ['t', 'r', 'u', 'e'] then some true
  else if s = ['f', 'a', 'l', 's', 'e'] then some false
  else none

/-- A value, and the warnings on the way to it. -/
abbrev Warned (α : Type) := α × List Warning

/-- The value that a text without the white space around it and in lower case gives. -/
def read {α : Type} (setting : Setting) (value? : List Char → Option α) (default : α) :
    Option String → Warned α
  | none => (default, [])
  | some text =>
    match value? ((Blank.trim text.toList).map Char.toLower) with
    | some x => (x, [])
    | none => (default, [.invalid setting text])

/-- The duration that a text gives in seconds. -/
def readDuration (setting : Setting) (default : Int) (text : Option String) : Warned Duration :=
  match read setting integer? default text with
  | (seconds, warnings) =>
    match Duration.ofSeconds? seconds with
    | some d => (d, warnings)
    | none => (.seconds default, warnings ++ [.outOfRange setting seconds])

/-- The configuration that the texts give, and the warnings in the order of the settings. -/
def ofEnvironment (texts : Environment) : Warned Config :=
  let (backward, first) := readDuration .backward 60 texts.backward
  let (forward, second) := readDuration .forward 0 texts.forward
  let (teeOnly, third) := read .teeOnly truth? false texts.teeOnly
  (⟨backward, forward, teeOnly, .acceptAll⟩, first ++ second ++ third)

end Config

end Attestation
