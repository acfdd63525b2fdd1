import Attestation.Json.Reader
import Attestation.Proofs.Result
import Mathlib.Data.List.TakeWhile

/-!
# White space, strings and numbers of JSON

What the readers of a string and of a number take is told by grammars: a string is characters and
escapes (`RawString`), and a number is a sign, the digits before the point, a fraction and an
exponent (`Number.Text`). A string ends at its quote, whatever follows (`readString_eq_some`). A
number has no end of its own, so that what follows must not continue it (`EndsNumber`): before such
bytes, the text of a number is taken as a whole (`readNumber_append`), and what is taken is always
the text of a number (`exists_text_of_readNumber`). No integer of 64 bits is out of the range of
floating-point numbers (`Number.inRange_of_integer?`).
-/

namespace Attestation.Json

/-! ## White space -/

/-- All of the bytes are white space. -/
def Blanks (b : Bytes) : Prop :=
  ∀ d ∈ b, isBlank d = true

/-- White space is skipped as a whole. -/
theorem skipBlanks_append {ws : Bytes} (h : Blanks ws) (b : Bytes) :
    skipBlanks (ws ++ b) = skipBlanks b :=
  List.dropWhile_append_of_pos h

/-- Nothing is skipped before a byte that is no white space. -/
theorem skipBlanks_cons {d : UInt8} (h : isBlank d = false) (b : Bytes) :
    skipBlanks (d :: b) = d :: b := by
  simp [skipBlanks, h]

/-- White space is skipped up to the first byte that is none. -/
theorem exists_blanks (b : Bytes) : ∃ ws, Blanks ws ∧ b = ws ++ skipBlanks b :=
  ⟨b.takeWhile isBlank, fun _ hd => List.mem_takeWhile_imp hd, List.takeWhile_append_dropWhile.symm⟩

/-- Only white space is skipped completely. -/
theorem skipBlanks_eq_nil {b : Bytes} : skipBlanks b = [] ↔ Blanks b :=
  List.dropWhile_eq_nil_iff

/-- A mark is taken from behind white space. -/
theorem readMark_eq_some {mark : UInt8} (hmark : isBlank mark = false) {b rest : Bytes} :
    readMark mark b = some rest ↔ ∃ ws, Blanks ws ∧ b = ws ++ mark :: rest := by
  refine ⟨fun h => ?_, fun ⟨ws, hws, hb⟩ => ?_⟩
  · obtain ⟨ws, hws, hb⟩ := exists_blanks b
    refine ⟨ws, hws, ?_⟩
    unfold readMark at h
    split at h
    · rename_i d b' hskip
      split at h
      · rename_i hd
        cases h
        rw [← hd, ← hskip]
        exact hb
      · cases h
    · cases h
  · subst hb
    simp [readMark, skipBlanks_append hws, skipBlanks_cons hmark]

/-- A mark is not taken from behind white space where another byte stands. -/
theorem readMark_eq_none {mark d : UInt8} (hd : isBlank d = false) (hne : d ≠ mark) {ws : Bytes}
    (hws : Blanks ws) (rest : Bytes) : readMark mark (ws ++ d :: rest) = none := by
  simp [readMark, skipBlanks_append hws, skipBlanks_cons hd, hne]

/-! ## Strings -/

/-- A string as it is written between its quotes: characters other than quotes, backslashes and
control characters, and escapes of two or six characters. -/
inductive RawString : Bytes → Prop
  | nil : RawString []
  | byte {d : UInt8} {raw : Bytes} :
    0x20 ≤ d → d ≠ quote → d ≠ backslash → RawString raw → RawString (d :: raw)
  | escape {e : UInt8} {raw : Bytes} :
    (escaped? e).isSome = true → RawString raw → RawString (backslash :: e :: raw)
  | codeUnit {d₁ d₂ d₃ d₄ : UInt8} {raw : Bytes} :
    (codeUnit? [d₁, d₂, d₃, d₄]).isSome = true → RawString raw →
    RawString (backslash :: 0x75 :: d₁ :: d₂ :: d₃ :: d₄ :: raw)

/-! ### Where a string ends -/

/-- A byte that does not end the string belongs to it. -/
theorem splitString_cons {d : UInt8} {afterBackslash : Bool}
    (h : ¬ (d = quote ∧ ¬ afterBackslash = true)) (b : Bytes) :
    splitString afterBackslash (d :: b) =
      (splitString (d == backslash && !afterBackslash) b).map fun (raw, rest) => (d :: raw, rest) :=
  if_neg h

/-- A character that is no quote and no backslash belongs to the string. -/
theorem splitString_cons_of_ne {d : UInt8} (hquote : d ≠ quote) (hbackslash : d ≠ backslash)
    (b : Bytes) : splitString false (d :: b) =
      (splitString false b).map fun (raw, rest) => (d :: raw, rest) := by
  rw [splitString_cons fun h => hquote h.1, beq_false_of_ne hbackslash, Bool.false_and]

/-- A backslash belongs to the string with the character after it, whatever that is. -/
theorem splitString_backslash (e : UInt8) (b : Bytes) : splitString false (backslash :: e :: b) =
      (splitString false b).map fun (raw, rest) => (backslash :: e :: raw, rest) := by
  rw [splitString_cons (by decide), beq_self_eq_true, Bool.not_false, Bool.and_self,
    splitString_cons (by simp), Bool.not_true, Bool.and_false, Option.map_map]
  rfl

/-- What is split off ends before the first byte, or the byte belongs to it. -/
theorem splitString_eq_some {afterBackslash : Bool} {b raw rest : Bytes}
    (h : splitString afterBackslash b = some (raw, rest)) :
    (raw = [] ∧ b = quote :: rest) ∨
      ∃ d b' raw', raw = d :: raw' ∧ b = d :: b' ∧ (d = quote → afterBackslash = true) ∧
        splitString (d == backslash && !afterBackslash) b' = some (raw', rest) := by
  cases b with
  | nil => cases h
  | cons d b =>
    by_cases hquote : d = quote ∧ ¬ afterBackslash = true
    · rw [splitString, if_pos hquote] at h
      cases h
      exact .inl ⟨rfl, by rw [hquote.1]⟩
    · rw [splitString_cons hquote] at h
      obtain ⟨⟨raw, rest⟩, hsplit, heq⟩ := Option.map_eq_some_iff.1 h
      cases heq
      refine .inr ⟨d, b, raw, rfl, rfl, fun hd => ?_, hsplit⟩
      simpa [hd] using hquote

/-- What is split off and what is left have the quote between them. -/
theorem append_of_splitString {afterBackslash : Bool} {b raw rest : Bytes}
    (h : splitString afterBackslash b = some (raw, rest)) : b = raw ++ quote :: rest := by
  induction b generalizing afterBackslash raw with
  | nil => cases h
  | cons d b ih =>
    obtain ⟨rfl, hb⟩ | ⟨_, _, raw', rfl, ⟨⟩, -, h⟩ := splitString_eq_some h
    · exact hb
    · rw [ih h, List.cons_append]

/-- Behind a character of a string that is no backslash, the string goes on. -/
theorem exists_splitString_of_cons {d : UInt8} {b raw rest : Bytes} (hd : d ≠ backslash)
    (h : splitString false b = some (d :: raw, rest)) :
    d ≠ quote ∧ ∃ b', splitString false b' = some (raw, rest) := by
  obtain ⟨⟨⟩, -⟩ | ⟨_, b', _, ⟨⟩, -, hquote, h⟩ := splitString_eq_some h
  rw [beq_false_of_ne hd, Bool.false_and] at h
  exact ⟨fun hd => Bool.false_ne_true (hquote hd), b', h⟩

/-- Behind a backslash in a string and the character after it, the string goes on. -/
theorem exists_splitString_of_backslash {e : UInt8} {b raw rest : Bytes}
    (h : splitString false b = some (backslash :: e :: raw, rest)) :
    ∃ b', splitString false b' = some (raw, rest) := by
  obtain ⟨⟨⟩, -⟩ | ⟨_, b', _, ⟨⟩, -, -, h₁⟩ := splitString_eq_some h
  rw [beq_self_eq_true, Bool.not_false, Bool.and_self] at h₁
  obtain ⟨⟨⟩, -⟩ | ⟨_, b'', _, ⟨⟩, -, -, h₂⟩ := splitString_eq_some h₁
  rw [Bool.not_true, Bool.and_false] at h₂
  exact ⟨b'', h₂⟩

/-! ### Characters and escapes -/

/-- A digit of a code unit is neither a quote nor a backslash. -/
theorem ne_of_isSome_hexDigit? {d : UInt8} (h : (hexDigit? d).isSome = true) :
    d ≠ quote ∧ d ≠ backslash := by
  refine ⟨?_, ?_⟩ <;>
  · rintro rfl
    exact absurd h (by decide)

/-- The bytes of a code unit are neither quotes nor backslashes. -/
theorem ne_of_isSome_codeUnit? {ds : List UInt8} (h : (codeUnit? ds).isSome = true) :
    ∀ d ∈ ds, d ≠ quote ∧ d ≠ backslash := by
  obtain ⟨n, hn⟩ := Option.isSome_iff_exists.1 h
  obtain ⟨ns, hns, -⟩ := Option.bind_eq_some_iff.1 hn
  rw [mapM_eq_some] at hns
  intro d hd
  obtain ⟨n, -, hn⟩ := List.mem_map.1 (hns ▸ List.mem_map_of_mem hd)
  exact ne_of_isSome_hexDigit? (Option.isSome_iff_exists.2 ⟨n, hn.symm⟩)

/-- A character is a piece of its own, unless it is a control character. -/
theorem isSome_pieces?_byte {d : UInt8} (h : d ≠ backslash) (raw : Bytes) :
    (pieces? (d :: raw)).isSome = true ↔ 0x20 ≤ d ∧ (pieces? raw).isSome = true := by
  rw [pieces?.eq_def]
  by_cases hd : d < 0x20
  · simp [h, hd, UInt8.not_le.2 hd]
  · simp [h, hd, UInt8.not_lt.1 hd]

/-- An escape of two characters is a piece, if the second one may be escaped. -/
theorem isSome_pieces?_escape {e : UInt8} (h : e ≠ 0x75) (raw : Bytes) :
    (pieces? (backslash :: e :: raw)).isSome = true ↔
      (escaped? e).isSome = true ∧ (pieces? raw).isSome = true := by
  rw [pieces?.eq_def]
  cases he : escaped? e <;> cases hraw : pieces? raw <;> simp [h, he, hraw]

/-- An escape of six characters is a piece, if the last four are hexadecimal digits. -/
theorem isSome_pieces?_codeUnit (d₁ d₂ d₃ d₄ : UInt8) (raw : Bytes) :
    (pieces? (backslash :: 0x75 :: d₁ :: d₂ :: d₃ :: d₄ :: raw)).isSome = true ↔
      (codeUnit? [d₁, d₂, d₃, d₄]).isSome = true ∧ (pieces? raw).isSome = true := by
  rw [pieces?.eq_def]
  cases hn : codeUnit? [d₁, d₂, d₃, d₄] <;> cases hraw : pieces? raw <;> simp [hn, hraw]

namespace RawString

/-- A string as it is written has pieces. -/
theorem isSome_pieces? {raw : Bytes} (h : RawString raw) : (pieces? raw).isSome = true := by
  induction h with
  | nil => rfl
  | byte hd _ hbackslash _ ih => exact (isSome_pieces?_byte hbackslash _).2 ⟨hd, ih⟩
  | escape he _ ih =>
    refine (isSome_pieces?_escape ?_ _).2 ⟨he, ih⟩
    rintro rfl
    exact absurd he (by decide)
  | codeUnit hn _ ih => exact (isSome_pieces?_codeUnit _ _ _ _ _).2 ⟨hn, ih⟩

/-- The quote behind a string is the first one that is not escaped. -/
theorem splitString_append {raw : Bytes} (h : RawString raw) (rest : Bytes) :
    splitString false (raw ++ quote :: rest) = some (raw, rest) := by
  induction h with
  | nil => rfl
  | byte _ hquote hbackslash _ ih =>
    rw [List.cons_append, splitString_cons_of_ne hquote hbackslash, ih]
    rfl
  | escape _ _ ih =>
    rw [List.cons_append, List.cons_append, splitString_backslash, ih]
    rfl
  | codeUnit hn _ ih =>
    have hne := ne_of_isSome_codeUnit? hn
    simp only [List.forall_mem_cons] at hne
    obtain ⟨⟨hq₁, hb₁⟩, ⟨hq₂, hb₂⟩, ⟨hq₃, hb₃⟩, ⟨hq₄, hb₄⟩, -⟩ := hne
    simp only [List.cons_append, splitString_backslash, splitString_cons_of_ne hq₁ hb₁,
      splitString_cons_of_ne hq₂ hb₂, splitString_cons_of_ne hq₃ hb₃,
      splitString_cons_of_ne hq₄ hb₄, ih]
    rfl

end RawString

/-- What is split off is a string, if its characters and escapes are. -/
theorem rawString_of_splitString {b raw rest : Bytes}
    (h : splitString false b = some (raw, rest)) (hpieces : (pieces? raw).isSome = true) :
    RawString raw := by
  induction raw using pieces?.induct generalizing b with
  | case1 => exact .nil
  | case2 d₁ d₂ d₃ d₄ raw ih =>
    obtain ⟨hn, hraw⟩ := (isSome_pieces?_codeUnit _ _ _ _ _).1 hpieces
    have hne := ne_of_isSome_codeUnit? hn
    simp only [List.forall_mem_cons] at hne
    obtain ⟨⟨-, h₁⟩, ⟨-, h₂⟩, ⟨-, h₃⟩, ⟨-, h₄⟩, -⟩ := hne
    -- Hexadecimal digits cannot end the string, so that all four of them belong to it.
    obtain ⟨b, h⟩ := exists_splitString_of_backslash h
    obtain ⟨-, b, h⟩ := exists_splitString_of_cons h₁ h
    obtain ⟨-, b, h⟩ := exists_splitString_of_cons h₂ h
    obtain ⟨-, b, h⟩ := exists_splitString_of_cons h₃ h
    obtain ⟨-, b, h⟩ := exists_splitString_of_cons h₄ h
    exact .codeUnit hn (ih h hraw)
  | case3 raw hshort =>
    rw [pieces?.eq_def] at hpieces
    simp at hpieces
  | case4 e raw he ih =>
    obtain ⟨hescape, hraw⟩ := (isSome_pieces?_escape he _).1 hpieces
    obtain ⟨b, h⟩ := exists_splitString_of_backslash h
    exact .escape hescape (ih h hraw)
  | case5 => exact absurd hpieces (by decide)
  | case6 d raw hd hcontrol =>
    exact absurd ((isSome_pieces?_byte hd _).1 hpieces).1 (UInt8.not_le.2 hcontrol)
  | case7 d raw hd hcontrol ih =>
    obtain ⟨hd', hraw⟩ := (isSome_pieces?_byte hd _).1 hpieces
    obtain ⟨hquote, b, h⟩ := exists_splitString_of_cons hd h
    exact .byte hd' hquote hd (ih h hraw)

/-- A string ends at the first quote that is not escaped, and what follows does not matter. -/
theorem readString_eq_some {b raw rest : Bytes} :
    readString b = some (raw, rest) ↔ RawString raw ∧ b = raw ++ quote :: rest := by
  refine ⟨fun h => ?_, fun ⟨hraw, hb⟩ => ?_⟩
  · obtain ⟨⟨raw', rest'⟩, hsplit, h⟩ := Option.bind_eq_some_iff.1 h
    obtain ⟨hpieces, heq⟩ := Option.ite_none_right_eq_some.1 h
    cases heq
    exact ⟨rawString_of_splitString hsplit hpieces, append_of_splitString hsplit⟩
  · subst hb
    simp [readString, hraw.splitString_append, hraw.isSome_pieces?]

/-! ## Digits -/

/-- All of the numbers are digits. -/
def AreDigits (ds : List Nat) : Prop :=
  ∀ n ∈ ds, n < 10

/-- The bytes that digits are written with. -/
def digitBytes (ds : List Nat) : Bytes :=
  ds.map fun n => UInt8.ofNat (0x30 + n)

/-- The bytes do not start with a digit. -/
def NoDigit (b : Bytes) : Prop :=
  ∀ d, b.head? = some d → digit? d = none

/-- A digit is told by its code. -/
theorem digit?_eq_some {d : UInt8} {n : Nat} :
    digit? d = some n ↔ n < 10 ∧ d = UInt8.ofNat (0x30 + n) := by
  have hd := d.toNat_lt
  unfold digit?
  rw [Option.ite_none_right_eq_some, UInt8.le_iff_toNat_le, UInt8.le_iff_toNat_le, Option.some_inj,
    ← UInt8.toNat_inj, UInt8.toNat_ofNat']
  change (48 ≤ d.toNat ∧ d.toNat ≤ 57) ∧ d.toNat - 48 = n ↔ n < 10 ∧ d.toNat = (48 + n) % 256
  omega

/-- What is taken as digits are digits. -/
theorem spanDigits_spec (b : Bytes) :
    AreDigits (spanDigits b).1 ∧ b = digitBytes (spanDigits b).1 ++ (spanDigits b).2 := by
  induction b with
  | nil => exact ⟨nofun, rfl⟩
  | cons d b ih =>
    cases hd : digit? d with
    | none =>
      simp only [spanDigits, hd]
      exact ⟨nofun, rfl⟩
    | some n =>
      obtain ⟨hn, rfl⟩ := digit?_eq_some.1 hd
      simp only [spanDigits, hd]
      exact ⟨List.forall_mem_cons.2 ⟨hn, ih.1⟩, congrArg (_ :: ·) ih.2⟩

/-- All digits are taken up to a byte that is none. -/
theorem spanDigits_append {ds : List Nat} {rest : Bytes} (hds : AreDigits ds)
    (hrest : NoDigit rest) : spanDigits (digitBytes ds ++ rest) = (ds, rest) := by
  induction ds with
  | nil =>
    cases rest with
    | nil => rfl
    | cons d rest =>
      simp only [digitBytes, List.map_nil, List.nil_append, spanDigits, hrest d rfl]
  | cons n ds ih =>
    obtain ⟨hn, hds⟩ := List.forall_mem_cons.1 hds
    have hd := digit?_eq_some.2 ⟨hn, rfl⟩
    simp only [digitBytes, List.map_cons, List.cons_append, spanDigits, hd]
    exact congrArg (fun s : List Nat × Bytes => (n :: s.1, s.2)) (ih hds)

/-- What is taken as digits are digits, at least one. -/
theorem exists_of_readDigits {b rest : Bytes} {ds : List Nat} (h : readDigits b = some (ds, rest)) :
    ds ≠ [] ∧ AreDigits ds ∧ b = digitBytes ds ++ rest := by
  obtain ⟨hds, hb⟩ := spanDigits_spec b
  unfold readDigits at h
  split at h
  · cases h
  · rename_i hne hspan
    cases h
    rw [hspan] at hds hb
    exact ⟨hne, hds, hb⟩

/-- Digits are taken up to a byte that is none. -/
theorem readDigits_append {ds : List Nat} {rest : Bytes} (hne : ds ≠ []) (hds : AreDigits ds)
    (hrest : NoDigit rest) : readDigits (digitBytes ds ++ rest) = some (ds, rest) := by
  unfold readDigits
  rw [spanDigits_append hds hrest]
  split
  · rename_i heq
    cases heq
    exact absurd rfl hne
  · rename_i heq
    cases heq
    rfl

/-! ## Numbers -/

/-- The sign of a number. -/
inductive MinusText : Bool → Bytes → Prop
  | none : MinusText false []
  | minus : MinusText true [0x2d]

/-- The digits before the point: a zero, or digits that do not start with it. -/
inductive WholeText : List Nat → Bytes → Prop
  | zero : WholeText [0] [0x30]
  | digits {n : Nat} {ds : List Nat} :
    n ≠ 0 → AreDigits (n :: ds) → WholeText (n :: ds) (digitBytes (n :: ds))

/-- The fraction of a number: nothing, or a point and digits. -/
inductive FractionText : List Nat → Bytes → Prop
  | none : FractionText [] []
  | digits {ds : List Nat} : ds ≠ [] → AreDigits ds → FractionText ds (0x2e :: digitBytes ds)

/-- The sign of an exponent. -/
inductive SignText : Bool → Bytes → Prop
  | none : SignText false []
  | plus : SignText false [0x2b]
  | minus : SignText true [0x2d]

/-- The exponent of a number: nothing, or its letter, a sign and digits. -/
inductive ExponentText : Bool → List Nat → Bytes → Prop
  | none : ExponentText false [] []
  | digits {negative : Bool} {ds : List Nat} {letter : UInt8} {sign : Bytes} :
    letter = 0x65 ∨ letter = 0x45 → SignText negative sign → ds ≠ [] → AreDigits ds →
    ExponentText negative ds (letter :: (sign ++ digitBytes ds))

/-- The text of a number. -/
inductive Number.Text (x : Number) : Bytes → Prop
  | intro {sign whole fraction exponent : Bytes} :
    MinusText x.negative sign → WholeText x.whole whole → FractionText x.fraction fraction →
    ExponentText x.negativeExponent x.exponent exponent →
    Text x (sign ++ (whole ++ (fraction ++ exponent)))

/-- A number is not continued by what follows it. -/
def EndsNumber (b : Bytes) : Prop :=
  ∀ d, b.head? = some d → digit? d = none ∧ d ≠ 0x2e ∧ d ≠ 0x65 ∧ d ≠ 0x45

/-! ### The parts of a number -/

/-- What is taken as a sign is one. -/
theorem exists_text_of_readMinus (b : Bytes) :
    ∃ t, MinusText (readMinus b).1 t ∧ b = t ++ (readMinus b).2 := by
  cases b with
  | nil => exact ⟨[], .none, rfl⟩
  | cons d b =>
    rw [readMinus]
    split
    · rename_i hd
      exact ⟨_, .minus, by rw [hd]; rfl⟩
    · exact ⟨_, .none, rfl⟩

/-- What is taken as the sign of an exponent is one. -/
theorem exists_text_of_readSign (b : Bytes) :
    ∃ t, SignText (readSign b).1 t ∧ b = t ++ (readSign b).2 := by
  cases b with
  | nil => exact ⟨[], .none, rfl⟩
  | cons d b =>
    rw [readSign]
    split
    · rename_i hd
      exact ⟨_, .plus, by rw [hd]; rfl⟩
    · obtain ⟨t, ht, hb⟩ := exists_text_of_readMinus (d :: b)
      refine ⟨t, ?_, hb⟩
      generalize (readMinus (d :: b)).1 = negative at ht
      cases ht with
      | none => exact .none
      | minus => exact .minus

/-- What is taken as the digits before the point are some, and do not start with a zero that is not
needed. -/
theorem exists_text_of_readWhole {b rest : Bytes} {ds : List Nat}
    (h : readWhole b = some (ds, rest)) : ∃ t, WholeText ds t ∧ b = t ++ rest := by
  cases b with
  | nil => cases h
  | cons d b =>
    rw [readWhole] at h
    split at h
    · rename_i hd
      cases h
      exact ⟨_, .zero, by rw [hd]; rfl⟩
    · rename_i hd
      obtain ⟨hne, hds, hb⟩ := exists_of_readDigits h
      cases ds with
      | nil => exact absurd rfl hne
      | cons n ds =>
        refine ⟨_, .digits ?_ hds, hb⟩
        rintro rfl
        exact hd (List.cons.inj hb).1

/-- What is taken as a fraction is one. -/
theorem exists_text_of_readFraction {b rest : Bytes} {ds : List Nat}
    (h : readFraction b = some (ds, rest)) : ∃ t, FractionText ds t ∧ b = t ++ rest := by
  cases b with
  | nil =>
    cases h
    exact ⟨[], .none, rfl⟩
  | cons d b =>
    rw [readFraction] at h
    split at h
    · rename_i hd
      obtain ⟨hne, hds, rfl⟩ := exists_of_readDigits h
      exact ⟨_, .digits hne hds, by rw [hd]; rfl⟩
    · cases h
      exact ⟨[], .none, rfl⟩

/-- What is taken as an exponent is one. -/
theorem exists_text_of_readExponent {b rest : Bytes} {negative : Bool} {ds : List Nat}
    (h : readExponent b = some ((negative, ds), rest)) :
    ∃ t, ExponentText negative ds t ∧ b = t ++ rest := by
  cases b with
  | nil =>
    cases h
    exact ⟨[], .none, rfl⟩
  | cons d b =>
    rw [readExponent] at h
    split at h
    · rename_i hd
      obtain ⟨⟨ds', rest'⟩, hdigits, heq⟩ := Option.map_eq_some_iff.1 h
      cases heq
      obtain ⟨sign, hsign, hb⟩ := exists_text_of_readSign b
      obtain ⟨hne, hds, hrest⟩ := exists_of_readDigits hdigits
      refine ⟨_, .digits hd hsign hne hds, ?_⟩
      rw [List.cons_append, List.append_assoc, ← hrest]
      exact congrArg (d :: ·) hb
    · cases h
      exact ⟨[], .none, rfl⟩

/-- What is taken as a number is the text of the number. -/
theorem exists_text_of_readNumber {b rest : Bytes} {x : Number}
    (h : readNumber b = some (x, rest)) : ∃ t, x.Text t ∧ b = t ++ rest := by
  obtain ⟨sign, hsign, hb⟩ := exists_text_of_readMinus b
  obtain ⟨⟨whole, b₁⟩, hreadWhole, h₁⟩ := Option.bind_eq_some_iff.1 h
  obtain ⟨⟨fraction, b₂⟩, hreadFraction, h₂⟩ := Option.bind_eq_some_iff.1 h₁
  obtain ⟨⟨⟨negative, exponent⟩, b₃⟩, hreadExponent, h₃⟩ := Option.bind_eq_some_iff.1 h₂
  cases h₃
  obtain ⟨w, hwhole, hb₁⟩ := exists_text_of_readWhole hreadWhole
  obtain ⟨f, hfraction, rfl⟩ := exists_text_of_readFraction hreadFraction
  obtain ⟨e, hexponent, rfl⟩ := exists_text_of_readExponent hreadExponent
  refine ⟨_, .intro hsign hwhole hfraction hexponent, ?_⟩
  rw [List.append_assoc, List.append_assoc, List.append_assoc, ← hb₁]
  exact hb

/-! ### What follows a part -/

/-- Digits do not start with another byte. -/
theorem head?_digitBytes_ne {ds : List Nat} (hne : ds ≠ []) (hds : AreDigits ds) {d : UInt8}
    (hd : digit? d = none) (rest : Bytes) : (digitBytes ds ++ rest).head? ≠ some d := by
  cases ds with
  | nil => exact absurd rfl hne
  | cons n ds =>
    intro h
    rw [← Option.some.inj h, digit?_eq_some.2 ⟨hds n (by simp), rfl⟩] at hd
    cases hd

theorem noDigit_cons {d : UInt8} (h : digit? d = none) (b : Bytes) : NoDigit (d :: b) := by
  rintro _ ⟨⟩
  exact h

theorem EndsNumber.noDigit {b : Bytes} (h : EndsNumber b) : NoDigit b :=
  fun d hd => (h d hd).1

/-- An exponent does not continue the digits before it, nor does what follows the number. -/
theorem ExponentText.noDigit_append {negative : Bool} {ds : List Nat} {t rest : Bytes}
    (h : ExponentText negative ds t) (hrest : EndsNumber rest) : NoDigit (t ++ rest) := by
  cases h with
  | none => exact hrest.noDigit
  | digits hletter _ _ _ =>
    refine noDigit_cons ?_ _
    rcases hletter with rfl | rfl <;> rfl

/-- An exponent does not start with a point, nor does what follows the number. -/
theorem ExponentText.head?_append_ne {negative : Bool} {ds : List Nat} {t rest : Bytes}
    (h : ExponentText negative ds t) (hrest : EndsNumber rest) :
    (t ++ rest).head? ≠ some 0x2e := by
  cases h with
  | none => exact fun h => (hrest _ h).2.1 rfl
  | digits hletter _ _ _ => rcases hletter with rfl | rfl <;> exact nofun

/-- A fraction does not continue the digits before it, nor does what follows the number. -/
theorem FractionText.noDigit_append {ds : List Nat} {t rest : Bytes} (h : FractionText ds t)
    (hrest : NoDigit rest) : NoDigit (t ++ rest) := by
  cases h with
  | none => exact hrest
  | digits _ _ => exact noDigit_cons rfl _

/-- The digits before the point do not start with a sign. -/
theorem WholeText.head?_append_ne {ds : List Nat} {t : Bytes} (h : WholeText ds t) (rest : Bytes) :
    (t ++ rest).head? ≠ some 0x2d := by
  cases h with
  | zero => exact nofun
  | digits _ hds => exact head?_digitBytes_ne (by simp) hds rfl rest

/-- A sign is taken, if what follows does not start with another one. -/
theorem readMinus_append {negative : Bool} {t rest : Bytes} (h : MinusText negative t)
    (hrest : rest.head? ≠ some 0x2d) : readMinus (t ++ rest) = (negative, rest) := by
  cases h with
  | minus => rfl
  | none =>
    cases rest with
    | nil => rfl
    | cons d rest => exact if_neg fun hd => hrest (congrArg some hd)

/-- The sign of an exponent is taken, if what follows does not start with another one. -/
theorem readSign_append {negative : Bool} {t rest : Bytes} (h : SignText negative t)
    (hplus : rest.head? ≠ some 0x2b) (hminus : rest.head? ≠ some 0x2d) :
    readSign (t ++ rest) = (negative, rest) := by
  cases h with
  | plus => rfl
  | minus => rfl
  | none =>
    cases rest with
    | nil => rfl
    | cons d rest =>
      rw [List.nil_append, readSign, if_neg fun hd => hplus (congrArg some hd)]
      exact readMinus_append .none hminus

/-- The digits before the point are taken, if no digit follows. -/
theorem readWhole_append {ds : List Nat} {t rest : Bytes} (h : WholeText ds t)
    (hrest : NoDigit rest) : readWhole (t ++ rest) = some (ds, rest) := by
  cases h with
  | zero => rfl
  | @digits n ds hn hds =>
    have hne : UInt8.ofNat (0x30 + n) ≠ 0x30 := by
      have hlt := hds n (by simp)
      rw [Ne, ← UInt8.toNat_inj, UInt8.toNat_ofNat']
      change ¬ (48 + n) % 256 = 48
      omega
    exact (if_neg hne).trans (readDigits_append (by simp) hds hrest)

/-- A fraction is taken, if no digit follows, and no point where there is no fraction. -/
theorem readFraction_append {ds : List Nat} {t rest : Bytes} (h : FractionText ds t)
    (hpoint : rest.head? ≠ some 0x2e) (hrest : NoDigit rest) :
    readFraction (t ++ rest) = some (ds, rest) := by
  cases h with
  | none =>
    cases rest with
    | nil => rfl
    | cons d rest => exact if_neg fun hd => hpoint (congrArg some hd)
  | digits hne hds => exact readDigits_append hne hds hrest

/-- An exponent is taken, if what follows does not continue the number. -/
theorem readExponent_append {negative : Bool} {ds : List Nat} {t rest : Bytes}
    (h : ExponentText negative ds t) (hrest : EndsNumber rest) :
    readExponent (t ++ rest) = some ((negative, ds), rest) := by
  cases h with
  | none =>
    cases rest with
    | nil => rfl
    | cons d rest =>
      obtain ⟨-, -, he, hE⟩ := hrest d rfl
      exact if_neg fun hd => hd.elim he hE
  | @digits _ _ letter sign hletter hsign hne hds =>
    have hsign : readSign (sign ++ (digitBytes ds ++ rest)) = (negative, digitBytes ds ++ rest) :=
      readSign_append hsign (head?_digitBytes_ne hne hds rfl rest)
        (head?_digitBytes_ne hne hds rfl rest)
    rw [List.cons_append, List.append_assoc, readExponent, if_pos hletter, hsign]
    simp only [readDigits_append hne hds hrest.noDigit, Option.map_some]

/-- The text of a number is taken as a whole, if what follows does not continue it. -/
theorem readNumber_append {x : Number} {t rest : Bytes} (h : x.Text t) (hrest : EndsNumber rest) :
    readNumber (t ++ rest) = some (x, rest) := by
  obtain ⟨hsign, hwhole, hfraction, hexponent⟩ := h
  rename_i sign whole fraction exponent
  have hafter : NoDigit (exponent ++ rest) := hexponent.noDigit_append hrest
  have hpoint := hexponent.head?_append_ne hrest
  simp only [List.append_assoc, readNumber,
    readMinus_append hsign (hwhole.head?_append_ne _),
    readWhole_append hwhole (hfraction.noDigit_append hafter),
    readFraction_append hfraction hpoint hafter, readExponent_append hexponent hrest,
    Option.bind_eq_bind, Option.bind_some]
  rfl

/-! ## Range -/

namespace Number

/-- Further digits do not make a number smaller. -/
theorem le_digitsValue (n : Nat) (ds : List Nat) : n ≤ digitsValue n ds := by
  induction ds generalizing n with
  | nil => exact Nat.le_refl n
  | cons d ds ih => exact Nat.le_trans (by omega) (ih (10 * n + d))

/-- Digits that write a number of 64 bits are all taken. -/
theorem takeDigits_of_lt {n : Nat} {ds : List Nat} (h : digitsValue n ds < 2 ^ 64) :
    takeDigits n ds = (digitsValue n ds, []) := by
  induction ds generalizing n with
  | nil => rfl
  | cons d ds ih =>
    rw [takeDigits, if_pos (Nat.lt_of_le_of_lt (le_digitsValue _ ds) h)]
    exact ih h

/-- Rounding does not more than double a number. -/
theorem roundBits_le (n : Nat) : roundBits n ≤ 2 * n := by
  by_cases hn : n = 0
  · subst hn
    decide
  · have hunit : 2 ^ (n.log2 - 52) ≤ n :=
      Nat.le_trans (Nat.pow_le_pow_right (by decide) (Nat.sub_le _ _)) (Nat.log2_self_le hn)
    have hfloor := Nat.div_mul_le_self n (2 ^ (n.log2 - 52))
    unfold roundBits
    dsimp only
    split
    · rw [Nat.add_mul]
      omega
    · omega

/-- An integer of 64 bits is in range. -/
theorem inRange_of_integer? {x : Number} {n : Int} (h : x.integer? = some n) : x.InRange := by
  unfold integer? at h
  dsimp only at h
  split at h
  · cases h
  rename_i hparts
  obtain ⟨hfraction, hexponent⟩ : x.fraction = [] ∧ x.exponent = [] := by simpa using hparts
  have hlt : digitsValue 0 x.whole < 2 ^ 64 := by
    split at h
    · have := (Option.ite_none_right_eq_some.1 h).1.2
      omega
    · have := (Option.ite_none_right_eq_some.1 h).1
      omega
  have hscale : x.scale = (digitsValue 0 x.whole, 0) := by
    simp [scale, takeDigits_of_lt hlt, hfraction, takeDigits]
  have hsmall : roundBits (digitsValue 0 x.whole) * roundBits (10 ^ (0 : Int).toNat) < overflow := by
    have hone : roundBits (10 ^ (0 : Int).toNat) = 1 := rfl
    have hbound : 2 ^ 65 ≤ overflow := by decide +kernel
    have hle := roundBits_le (digitsValue 0 x.whole)
    rw [hone]
    omega
  have hfinite : Finite (digitsValue 0 x.whole) 0 := .inr (.inr ⟨by decide, hsmall⟩)
  rw [InRange, hscale, hexponent]
  cases x.negativeExponent <;> exact hfinite

end Number

end Attestation.Json
