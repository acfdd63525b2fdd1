import Attestation.Calendar
import Attestation.Config
import Mathlib.Data.List.DropRight
import Mathlib.Data.List.Forall2

/-!
# Texts of settings

A text gives an integer if, without the white space around it, it is a literal: a decimal numeral
with any zeros before it, and perhaps a sign (`Config.WritesInteger`). It gives a truth value if it
is the name of this value in letters of any case (`Config.NamesTruth`). These are the texts that a
setting takes a value from (`Config.integer?_eq_some_iff`, `Config.truth?_eq_some_iff`).
-/

namespace Attestation

/-! ## White space -/

namespace Blank

variable {before body after : List Char}

/-- What ASCII prints is no white space. -/
theorem isBlank_of_printed {c : Char} (hfirst : 0x21 ≤ c.toNat) (hlast : c.toNat ≤ 0x7e) :
    isBlank c = false := by
  simp only [isBlank, Bool.or_eq_false_iff, Bool.and_eq_false_iff, decide_eq_false_iff_not,
    beq_eq_false_iff_ne]
  omega

/-- What is trimmed off is white space. -/
theorem exists_trim (s : List Char) :
    ∃ before after, s = before ++ trim s ++ after ∧ (∀ c ∈ before, isBlank c = true) ∧
      ∀ c ∈ after, isBlank c = true := by
  refine ⟨s.takeWhile isBlank, (s.dropWhile isBlank).rtakeWhile isBlank, ?_,
    fun c => List.mem_takeWhile_imp, fun c => List.mem_rtakeWhile_imp⟩
  have hbody : trim s ++ (s.dropWhile isBlank).rtakeWhile isBlank = s.dropWhile isBlank :=
    List.rdropWhile_append_rtakeWhile
  rw [List.append_assoc, hbody, List.takeWhile_append_dropWhile]

/-- White space is dropped up to the first character that is none. -/
theorem dropWhile_append (hbefore : ∀ c ∈ before, isBlank c = true) (hne : body ≠ [])
    (hbody : ∀ c ∈ body, isBlank c = false) (after : List Char) :
    (before ++ (body ++ after)).dropWhile isBlank = body ++ after := by
  rw [List.dropWhile_append_of_pos hbefore]
  cases body with
  | nil => exact absurd rfl hne
  | cons c body =>
    have hc : ¬isBlank c = true := by simp [hbody c List.mem_cons_self]
    exact List.dropWhile_cons_of_neg hc

/-- Characters without white space are all that is left of them in white space. -/
theorem trim_append (hbefore : ∀ c ∈ before, isBlank c = true)
    (hafter : ∀ c ∈ after, isBlank c = true) (hne : body ≠ [])
    (hbody : ∀ c ∈ body, isBlank c = false) : trim (before ++ body ++ after) = body := by
  have hreverse : (after.reverse ++ (body.reverse ++ [])).dropWhile isBlank = body.reverse ++ [] :=
    dropWhile_append (by simpa using hafter) (by simpa using hne) (by simpa using hbody) []
  rw [List.append_nil] at hreverse
  rw [trim, List.append_assoc, dropWhile_append hbefore hne hbody, List.reverse_append, hreverse,
    List.reverse_reverse]

end Blank

namespace Config

/-- The text is the body with white space around it. -/
def Frames (text : String) (body : List Char) : Prop :=
  ∃ before after, text.toList = before ++ body ++ after ∧
    (∀ c ∈ before, Blank.isBlank c = true) ∧ ∀ c ∈ after, Blank.isBlank c = true

/-- A body without white space in it is found by trimming. -/
theorem exists_frames_iff {text : String} {P : List Char → Prop}
    (hP : ∀ body, P body → body ≠ [] ∧ ∀ c ∈ body, Blank.isBlank c = false) :
    (∃ body, Frames text body ∧ P body) ↔ P (Blank.trim text.toList) := by
  constructor
  · rintro ⟨body, ⟨before, after, htext, hbefore, hafter⟩, hbody⟩
    obtain ⟨hne, hblank⟩ := hP body hbody
    rwa [htext, Blank.trim_append hbefore hafter hne hblank]
  · intro htrim
    exact ⟨_, Blank.exists_trim text.toList, htrim⟩

/-! ## Letters -/

variable {c d : Char} {s word : List Char}

/-- The code of a lower-case letter is 32 more than the one of the upper-case letter. -/
theorem toNat_toLower (c : Char) :
    c.toLower.toNat = if 65 ≤ c.toNat ∧ c.toNat ≤ 90 then c.toNat + 32 else c.toNat := by
  have hcapital : (c.val ≥ 'A'.val ∧ c.val ≤ 'Z'.val) ↔ 65 ≤ c.toNat ∧ c.toNat ≤ 90 := by
    rw [ge_iff_le, UInt32.le_iff_toNat_le, UInt32.le_iff_toNat_le]
    rfl
  by_cases h : c.val ≥ 'A'.val ∧ c.val ≤ 'Z'.val
  · have hc := hcapital.1 h
    rw [if_pos hc]
    have hlower : c.toLower = ⟨c.val + ('a'.val - 'A'.val), _⟩ := dif_pos h
    calc c.toLower.toNat
      _ = (c.val + ('a'.val - 'A'.val)).toNat := by rw [hlower, Char.toNat]
      _ = (c.toNat + 32) % 2 ^ 32 := UInt32.toNat_add _ _
      _ = c.toNat + 32 := by omega
  · rw [if_neg (mt hcapital.2 h)]
    exact congrArg Char.toNat (dif_neg h)

/-- The code of an upper-case letter is 32 less than the one of the lower-case letter. -/
theorem toNat_toUpper (c : Char) :
    c.toUpper.toNat = if 97 ≤ c.toNat ∧ c.toNat ≤ 122 then c.toNat - 32 else c.toNat := by
  have hsmall : ('a'.val ≤ c.val ∧ c.val ≤ 'z'.val) ↔ 97 ≤ c.toNat ∧ c.toNat ≤ 122 := by
    rw [UInt32.le_iff_toNat_le, UInt32.le_iff_toNat_le]
    rfl
  by_cases h : 'a'.val ≤ c.val ∧ c.val ≤ 'z'.val
  · have hc := hsmall.1 h
    rw [if_pos hc]
    have hupper : c.toUpper = ⟨c.val + ('A'.val - 'a'.val), _⟩ := dif_pos h
    have hsum : (c.val + ('A'.val - 'a'.val)).toNat = (c.toNat + (2 ^ 32 - 32)) % 2 ^ 32 :=
      UInt32.toNat_add _ _
    calc c.toUpper.toNat
      _ = (c.val + ('A'.val - 'a'.val)).toNat := by rw [hupper, Char.toNat]
      _ = (c.toNat + (2 ^ 32 - 32)) % 2 ^ 32 := hsum
      _ = c.toNat - 32 := by omega
  · rw [if_neg (mt hsmall.2 h)]
    exact congrArg Char.toNat (dif_neg h)

/-- What becomes a character that is no capital is this character or its capital. -/
theorem toLower_eq_iff (hd : ¬(65 ≤ d.toNat ∧ d.toNat ≤ 90)) :
    c.toLower = d ↔ c = d ∨ c = d.toUpper := by
  simp only [← Char.toNat_inj, toNat_toLower, toNat_toUpper]
  split <;> split <;> omega

/-- The characters are those of the word, each of them as it is or as a capital. -/
def Spells (s word : List Char) : Prop :=
  List.Forall₂ (fun c d => c = d ∨ c = d.toUpper) s word

/-- Characters are compared with a word in any case by comparing them in lower case. -/
theorem map_toLower_eq_iff (hword : ∀ d ∈ word, ¬(65 ≤ d.toNat ∧ d.toNat ≤ 90)) :
    s.map Char.toLower = word ↔ Spells s word := by
  induction s generalizing word with
  | nil =>
    rw [List.map_nil, Spells, List.forall₂_nil_left_iff]
    exact eq_comm
  | cons c s ih =>
    cases word with
    | nil => simp [Spells]
    | cons d word =>
      rw [List.map_cons, List.cons.injEq, toLower_eq_iff (hword d List.mem_cons_self),
        ih fun d hd => hword d (List.mem_cons_of_mem _ hd), Spells, Spells, List.forall₂_cons]

/-! ## Numerals -/

/-- A number is written by digits, at least one. -/
theorem digits?_eq_some {n : Nat} :
    digits? s = some n ↔ s ≠ [] ∧ (∀ c ∈ s, c.isDigit = true) ∧ Nat.ofDigitChars 10 s 0 = n := by
  rw [digits?, ← List.all_eq_true, ← and_assoc]
  split
  · rename_i h
    rw [Option.some.injEq, and_iff_right h]
    rfl
  · rename_i h
    exact ⟨nofun, fun hdigits => absurd hdigits.1 h⟩

/-- A digit is told by its code. -/
theorem digitChar_of_isDigit (h : c.isDigit = true) :
    c.toNat - 48 < 10 ∧ Nat.digitChar (c.toNat - 48) = c := by
  obtain ⟨hfirst, hlast⟩ : 48 ≤ c.toNat ∧ c.toNat ≤ 57 := Char.isDigit_iff_toNat.1 h
  have hlt : c.toNat - 48 < 10 := by omega
  refine ⟨hlt, Char.toNat_inj.1 ?_⟩
  rw [Nat.toNat_digitChar_of_lt_ten hlt]
  omega

/-- Digits after the numeral of a positive number are the numeral of what they continue it to. -/
theorem toDigits_ofDigitChars {m : Nat} (hm : 0 < m) (hs : ∀ c ∈ s, c.isDigit = true) :
    Nat.toDigits 10 (Nat.ofDigitChars 10 s m) = Nat.toDigits 10 m ++ s := by
  induction s generalizing m with
  | nil => rw [Nat.ofDigitChars_nil, List.append_nil]
  | cons c s ih =>
    obtain ⟨hlt, hc⟩ := digitChar_of_isDigit (hs c List.mem_cons_self)
    have hdigit : Nat.toDigits 10 (10 * m + (c.toNat - 48)) = Nat.toDigits 10 m ++ [c] := by
      rw [← Nat.toDigits_append_toDigits (by decide) hm hlt, Nat.toDigits_of_lt_base hlt, hc]
    rw [Nat.ofDigitChars_cons]
    show Nat.toDigits 10 (Nat.ofDigitChars 10 s (10 * m + (c.toNat - 48))) = _
    rw [ih (by omega) fun c hc => hs c (List.mem_cons_of_mem _ hc), hdigit, List.append_assoc,
      List.singleton_append]

/-- Digits are zeros and, after them, the numeral of their number. -/
theorem exists_zeros (hne : s ≠ []) (hs : ∀ c ∈ s, c.isDigit = true) :
    ∃ zeros, s = List.replicate zeros '0' ++ Nat.toDigits 10 (Nat.ofDigitChars 10 s 0) := by
  induction s with
  | nil => exact absurd rfl hne
  | cons c s ih =>
    have hs' : ∀ c ∈ s, c.isDigit = true := fun c hc => hs c (List.mem_cons_of_mem _ hc)
    obtain ⟨hlt, hc⟩ := digitChar_of_isDigit (hs c List.mem_cons_self)
    rw [Nat.ofDigitChars_cons]
    by_cases hzero : c = '0'
    · subst hzero
      -- A zero is the numeral of zero where it stands alone, and else one of those before it.
      cases s with
      | nil => exact ⟨0, rfl⟩
      | cons d s =>
        obtain ⟨zeros, h⟩ := ih (List.cons_ne_nil d s) hs'
        exact ⟨zeros + 1, congrArg ('0' :: ·) h⟩
    · have hpos : 0 < c.toNat - 48 := by
        refine Nat.pos_of_ne_zero fun h => hzero ?_
        rw [← hc, h]
        rfl
      refine ⟨0, ?_⟩
      show c :: s = Nat.toDigits 10 (Nat.ofDigitChars 10 s (10 * 0 + (c.toNat - 48)))
      rw [Nat.mul_zero, Nat.zero_add, toDigits_ofDigitChars hpos hs', Nat.toDigits_of_lt_base hlt,
        hc, List.singleton_append]

/-- Digits are read as the number of which they are a numeral of some width. -/
theorem digits?_eq_some_iff {n : Nat} :
    digits? s = some n ↔ ∃ width, s = (Numeral.decimal width n).toList := by
  have hpadded (width : Nat) : (Numeral.decimal width n).toList =
      List.replicate (width - (Nat.toDigits 10 n).length) '0' ++ Nat.toDigits 10 n :=
    String.toList_ofList
  rw [digits?_eq_some]
  constructor
  · rintro ⟨hne, hs, rfl⟩
    obtain ⟨zeros, h⟩ := exists_zeros hne hs
    refine ⟨zeros + (Nat.toDigits 10 (Nat.ofDigitChars 10 s 0)).length, ?_⟩
    rwa [hpadded, Nat.add_sub_cancel]
  · rintro ⟨width, rfl⟩
    rw [hpadded]
    refine ⟨List.append_ne_nil_of_right_ne_nil _ Nat.toDigits_ne_nil, fun c hc => ?_, ?_⟩
    · rcases List.mem_append.1 hc with hc | hc
      · rw [List.eq_of_mem_replicate hc]
        rfl
      · exact Nat.isDigit_of_mem_toDigits (by decide) (by decide) hc
    · rw [Nat.ofDigitChars_append, Nat.ofDigitChars_replicate_zero, Nat.mul_zero,
        Nat.ofDigitChars_ten_toDigits]

/-- The digits of a number are read as the number. -/
theorem digits?_decimal (width n : Nat) : digits? (Numeral.decimal width n).toList = some n :=
  digits?_eq_some_iff.2 ⟨width, rfl⟩

/-! ## Integers -/

/-- The characters are a literal of the integer: a decimal numeral of any width, perhaps after a
sign. -/
inductive Literal : List Char → Int → Prop
  | unsigned (width n : Nat) : Literal (Numeral.decimal width n).toList n
  | plus (width n : Nat) : Literal ('+' :: (Numeral.decimal width n).toList) n
  | minus (width n : Nat) : Literal ('-' :: (Numeral.decimal width n).toList) (-n)

/-- A literal is made of digits and a sign. -/
theorem Literal.mem {n : Int} (h : Literal s n) (hc : c ∈ s) :
    c = '+' ∨ c = '-' ∨ c.isDigit = true := by
  have hdigits (width n : Nat) : ∀ c ∈ (Numeral.decimal width n).toList, c.isDigit = true :=
    (digits?_eq_some.1 (digits?_decimal width n)).2.1
  cases h with
  | unsigned width n => exact .inr (.inr (hdigits width n c hc))
  | plus width n => exact (List.mem_cons.1 hc).imp_right fun hc => .inr (hdigits width n c hc)
  | minus width n => exact .inr ((List.mem_cons.1 hc).imp_right (hdigits width n c))

/-- The codes of the characters of a literal lie between those of the plus sign and the last
digit. -/
theorem Literal.toNat_mem {n : Int} (h : Literal s n) (hc : c ∈ s) :
    0x2b ≤ c.toNat ∧ c.toNat ≤ 0x39 := by
  rcases h.mem hc with rfl | rfl | hdigit
  · decide
  · decide
  · obtain ⟨hfirst, hlast⟩ : 48 ≤ c.toNat ∧ c.toNat ≤ 57 := Char.isDigit_iff_toNat.1 hdigit
    omega

/-- A literal is not empty. -/
theorem Literal.ne_nil {n : Int} (h : Literal s n) : s ≠ [] := by
  cases h with
  | unsigned width n => exact (digits?_eq_some.1 (digits?_decimal width n)).1
  | plus | minus => exact List.cons_ne_nil _ _

/-- A literal starts and ends with characters that are no white space. -/
theorem Literal.solid {n : Int} (h : Literal s n) :
    s ≠ [] ∧ ∀ c ∈ s, Blank.isBlank c = false := by
  refine ⟨h.ne_nil, fun c hc => ?_⟩
  have := h.toNat_mem hc
  exact Blank.isBlank_of_printed (by omega) (by omega)

/-- There are no letters in a literal that could be written in another case. -/
theorem literal_map_toLower_iff {n : Int} : Literal (s.map Char.toLower) n ↔ Literal s n := by
  have hself (hs : ∀ c ∈ s, c.toLower = c) : s.map Char.toLower = s :=
    (List.map_congr_left hs).trans (List.map_id s)
  constructor
  · intro h
    rw [hself fun c hc => ?_] at h
    · exact h
    · have := h.toNat_mem (List.mem_map_of_mem hc)
      rw [toNat_toLower] at this
      rw [← Char.toNat_inj, toNat_toLower]
      split at this <;> split <;> omega
  · intro h
    rw [hself fun c hc => ?_]
    · exact h
    · have := h.toNat_mem hc
      rw [← Char.toNat_inj, toNat_toLower, if_neg (by omega)]

/-- A numeral with a sign or without one is read as far as its number fits 64 bits. -/
theorem ranged_eq_some {digits : Option Nat} {signed : Nat → Int} {n : Int} :
    ((digits.map signed).bind fun n => if -2 ^ 63 ≤ n ∧ n < 2 ^ 63 then some n else none) =
        some n ↔
      ∃ m, digits = some m ∧ signed m = n ∧ -2 ^ 63 ≤ n ∧ n < 2 ^ 63 := by
  cases digits with
  | none => simp
  | some m =>
    show (if -2 ^ 63 ≤ signed m ∧ signed m < 2 ^ 63 then some (signed m) else none) = some n ↔ _
    rw [Option.ite_none_right_eq_some, Option.some.injEq]
    constructor
    · rintro ⟨hrange, rfl⟩
      exact ⟨m, rfl, rfl, hrange⟩
    · rintro ⟨m', hm, rfl, hrange⟩
      cases hm
      exact ⟨hrange, rfl⟩

/-- An integer is a literal that fits 64 bits with a sign. -/
theorem integer?_eq_some {n : Int} :
    integer? s = some n ↔ Literal s n ∧ -2 ^ 63 ≤ n ∧ n < 2 ^ 63 := by
  refine ⟨fun h => ?_, fun h => ?_⟩
  · unfold integer? at h
    split at h
    · obtain ⟨m, hm, rfl, hrange⟩ := ranged_eq_some.1 h
      obtain ⟨width, rfl⟩ := digits?_eq_some_iff.1 hm
      exact ⟨.plus width m, hrange⟩
    · obtain ⟨m, hm, rfl, hrange⟩ := ranged_eq_some.1 h
      obtain ⟨width, rfl⟩ := digits?_eq_some_iff.1 hm
      exact ⟨.minus width m, hrange⟩
    · obtain ⟨m, hm, rfl, hrange⟩ := ranged_eq_some.1 h
      obtain ⟨width, rfl⟩ := digits?_eq_some_iff.1 hm
      exact ⟨.unsigned width m, hrange⟩
  · obtain ⟨hliteral, hrange⟩ := h
    cases hliteral with
    | unsigned width n =>
      have hdigits := (digits?_eq_some.1 (digits?_decimal width n)).2.1
      unfold integer?
      split
      · rename_i hsign
        rw [hsign] at hdigits
        cases hdigits '+' List.mem_cons_self
      · rename_i hsign
        rw [hsign] at hdigits
        cases hdigits '-' List.mem_cons_self
      · exact ranged_eq_some.2 ⟨n, digits?_decimal width n, rfl, hrange⟩
    | plus width n => exact ranged_eq_some.2 ⟨n, digits?_decimal width n, rfl, hrange⟩
    | minus width n => exact ranged_eq_some.2 ⟨n, digits?_decimal width n, rfl, hrange⟩

/-- The text writes the integer of 64 bits: its literal between white space. -/
def WritesInteger (text : String) (n : Int) : Prop :=
  ∃ literal, Frames text literal ∧ Literal literal n ∧ -2 ^ 63 ≤ n ∧ n < 2 ^ 63

/-- What a setting takes for an integer. -/
theorem integer?_eq_some_iff {text : String} {n : Int} :
    integer? ((Blank.trim text.toList).map Char.toLower) = some n ↔ WritesInteger text n := by
  rw [integer?_eq_some, literal_map_toLower_iff]
  exact (exists_frames_iff (P := fun s => Literal s n ∧ -2 ^ 63 ≤ n ∧ n < 2 ^ 63)
    fun _ h => h.1.solid).symm

/-! ## Truth values -/

/-- The name of a truth value. -/
def truthName : Bool → List Char
  | true => ['t', 'r', 'u', 'e']
  | false => ['f', 'a', 'l', 's', 'e']

/-- A truth value is told by its name in lower case. -/
theorem truth?_eq_some {b : Bool} : truth? s = some b ↔ s = truthName b := by
  unfold truth?
  split
  · rename_i h
    subst h
    cases b <;> decide
  · split
    · rename_i h
      subst h
      cases b <;> decide
    · cases b <;> simp_all [truthName]

/-- Names are written in small letters. -/
theorem toNat_mem_truthName {b : Bool} (hd : d ∈ truthName b) : 97 ≤ d.toNat ∧ d.toNat ≤ 122 := by
  have hsmall : (truthName b).all (fun d => 97 ≤ d.toNat ∧ d.toNat ≤ 122) = true := by
    cases b <;> rfl
  exact of_decide_eq_true (List.all_eq_true.1 hsmall d hd)

/-- A text in lower case is the name of a truth value exactly if it spells the name in letters of
any case. -/
theorem map_toLower_eq_truthName_iff {b : Bool} :
    s.map Char.toLower = truthName b ↔ Spells s (truthName b) := by
  refine map_toLower_eq_iff fun d hd => ?_
  have := toNat_mem_truthName hd
  omega

/-- A name of a truth value starts and ends with characters that are no white space. -/
theorem Spells.solid {b : Bool} (h : Spells s (truthName b)) :
    s ≠ [] ∧ ∀ c ∈ s, Blank.isBlank c = false := by
  have hmap := map_toLower_eq_truthName_iff.2 h
  refine ⟨fun hnil => ?_, fun c hc => ?_⟩
  · subst hnil
    cases b <;> cases hmap
  have hc : c.toLower ∈ truthName b := hmap ▸ List.mem_map_of_mem hc
  have := toNat_mem_truthName hc
  rw [toNat_toLower] at this
  split at this <;> exact Blank.isBlank_of_printed (by omega) (by omega)

/-- The text names the truth value, in letters of any case between white space. -/
def NamesTruth (text : String) (b : Bool) : Prop :=
  ∃ word, Frames text word ∧ Spells word (truthName b)

/-- What a setting takes for a truth value. -/
theorem truth?_eq_some_iff {text : String} {b : Bool} :
    truth? ((Blank.trim text.toList).map Char.toLower) = some b ↔ NamesTruth text b := by
  rw [truth?_eq_some, map_toLower_eq_truthName_iff]
  exact (exists_frames_iff (P := fun s => Spells s (truthName b)) fun _ h => h.solid).symm

end Config

end Attestation
