import Attestation.Base64

/-!
# Texts in base 64

Every byte string is read from the text that it is written as, and from no other one
(`decode_eq_some_iff`). So comparing what is read is comparing texts. All characters of a text, up
to the padding, are characters of digits (`isSome_digit?_of_mem`).
-/

namespace Attestation.Base64

/-- The digits 62 and 63 have characters of their own, and the padding is not one of a digit. -/
structure Form.Proper (f : Form) : Prop where
  digit62 : digit? f f.digit62 = some 62
  digit63 : digit? f f.digit63 = some 63
  padCharacter : digit? f padCharacter = none

/-- The standard alphabet tells all digits apart. -/
theorem proper_standard : standard.Proper :=
  ⟨by decide, by decide, by decide⟩

/-- The alphabet for URLs tells all digits apart. -/
theorem proper_url : url.Proper :=
  ⟨by decide, by decide, by decide⟩

variable {f : Form}

/-! ## Digits -/

/-- A number below 256 is a byte. -/
theorem toNat_ofNat_of_lt {n : Nat} (h : n < 256) : (UInt8.ofNat n).toNat = n :=
  UInt8.toNat_ofNat_of_lt' h

/-- A digit that is read is written as the same character. -/
theorem eq_character_of_digit? {c : UInt8} {n : Nat} (h : digit? f c = some n) :
    c = character f n ∧ n < 64 := by
  unfold digit? at h
  simp only [UInt8.le_iff_toNat_le, UInt8.reduceToNat] at h
  have shifted {k : Nat} (hk : k ≤ c.toNat) : c = UInt8.ofNat (c.toNat - k + k) := by
    rw [Nat.sub_add_cancel hk, UInt8.ofNat_toNat]
  -- Capital letters, small letters and figures follow each other among the digits.
  split at h
  · cases h
    rw [character, if_pos (by omega)]
    exact ⟨shifted (by omega), by omega⟩
  split at h
  · cases h
    rw [character, if_neg (by omega), if_pos (by omega), Nat.add_sub_cancel]
    exact ⟨shifted (by omega), by omega⟩
  split at h
  · cases h
    rw [character, if_neg (by omega), if_neg (by omega), if_pos (by omega), Nat.add_sub_cancel]
    exact ⟨shifted (by omega), by omega⟩
  split at h
  · rename_i hc
    cases h
    exact ⟨hc, by decide⟩
  split at h
  · rename_i hc
    cases h
    exact ⟨hc, by decide⟩
  · cases h

/-- A digit is read from the character that it is written as. -/
theorem digit?_character (hf : f.Proper) {n : Nat} (hn : n < 64) :
    digit? f (character f n) = some n := by
  unfold character
  split
  · simp only [digit?, UInt8.le_iff_toNat_le, UInt8.reduceToNat,
      toNat_ofNat_of_lt (show n + 0x41 < 256 by omega)]
    rw [if_pos (by omega), Nat.add_sub_cancel]
  split
  · simp only [digit?, UInt8.le_iff_toNat_le, UInt8.reduceToNat,
      toNat_ofNat_of_lt (show n - 26 + 0x61 < 256 by omega)]
    rw [if_neg (by omega), if_pos (by omega)]
    exact congrArg some (by omega)
  split
  · simp only [digit?, UInt8.le_iff_toNat_le, UInt8.reduceToNat,
      toNat_ofNat_of_lt (show n - 52 + 0x30 < 256 by omega)]
    rw [if_neg (by omega), if_neg (by omega), if_pos (by omega)]
    exact congrArg some (by omega)
  split
  · rename_i h62
    rw [h62, hf.digit62]
  · obtain rfl : n = 63 := by omega
    exact hf.digit63

/-! ## Groups -/

/-- The digits of three bytes that four digits make up are these four. -/
theorem encodeBody_four {a b c d : Nat} (ha : a < 64) (hb : b < 64) (hc : c < 64) (hd : d < 64)
    (rest : Bytes) :
    encodeBody f (UInt8.ofNat (a * 4 + b / 16) :: UInt8.ofNat (b % 16 * 16 + c / 4) ::
        UInt8.ofNat (c % 4 * 64 + d) :: rest) =
      character f a :: character f b :: character f c :: character f d :: encodeBody f rest := by
  rw [encodeBody, toNat_ofNat_of_lt (by omega), toNat_ofNat_of_lt (by omega),
    toNat_ofNat_of_lt (by omega), show (a * 4 + b / 16) / 4 = a by omega,
    show (a * 4 + b / 16) % 4 * 16 + (b % 16 * 16 + c / 4) / 16 = b by omega,
    show (b % 16 * 16 + c / 4) % 16 * 4 + (c % 4 * 64 + d) / 64 = c by omega,
    show (c % 4 * 64 + d) % 64 = d by omega]

/-- The digits of two bytes that three digits make up are these three, if no bit is left. -/
theorem encodeBody_three {a b c : Nat} (ha : a < 64) (hb : b < 64) (hc : c < 64)
    (hzero : c % 4 = 0) :
    encodeBody f [UInt8.ofNat (a * 4 + b / 16), UInt8.ofNat (b % 16 * 16 + c / 4)] =
      [character f a, character f b, character f c] := by
  rw [encodeBody, toNat_ofNat_of_lt (by omega), toNat_ofNat_of_lt (by omega),
    show (a * 4 + b / 16) / 4 = a by omega,
    show (a * 4 + b / 16) % 4 * 16 + (b % 16 * 16 + c / 4) / 16 = b by omega,
    show (b % 16 * 16 + c / 4) % 16 * 4 = c by omega]

/-- The digits of a byte that two digits make up are these two, if no bit is left. -/
theorem encodeBody_two {a b : Nat} (ha : a < 64) (hb : b < 64) (hzero : b % 16 = 0) :
    encodeBody f [UInt8.ofNat (a * 4 + b / 16)] = [character f a, character f b] := by
  rw [encodeBody, toNat_ofNat_of_lt (by omega), show (a * 4 + b / 16) / 4 = a by omega,
    show (a * 4 + b / 16) % 4 * 16 = b by omega]

/-! ## Texts -/

/-- What is read was written: the bits that do not count are zero in both. -/
theorem eq_encodeBody_of_decodeBody {text b : Bytes} (h : decodeBody f text = some b) :
    text = encodeBody f b := by
  fun_induction decodeBody f text generalizing b with
  | case1 =>
    cases h
    rfl
  | case2 => cases h
  | case3 c₁ c₂ =>
    obtain ⟨a, ha, h₁⟩ := Option.bind_eq_some_iff.1 h
    obtain ⟨b, hb, h₂⟩ := Option.bind_eq_some_iff.1 h₁
    obtain ⟨rfl, ha⟩ := eq_character_of_digit? ha
    obtain ⟨rfl, hb⟩ := eq_character_of_digit? hb
    split at h₂
    · rename_i hzero
      cases h₂
      exact (encodeBody_two ‹a < 64› ‹b < 64› hzero).symm
    · cases h₂
  | case4 c₁ c₂ c₃ =>
    obtain ⟨a, ha, h₁⟩ := Option.bind_eq_some_iff.1 h
    obtain ⟨b, hb, h₂⟩ := Option.bind_eq_some_iff.1 h₁
    obtain ⟨c, hc, h₃⟩ := Option.bind_eq_some_iff.1 h₂
    obtain ⟨rfl, ha⟩ := eq_character_of_digit? ha
    obtain ⟨rfl, hb⟩ := eq_character_of_digit? hb
    obtain ⟨rfl, hc⟩ := eq_character_of_digit? hc
    split at h₃
    · rename_i hzero
      cases h₃
      exact (encodeBody_three ‹a < 64› ‹b < 64› ‹c < 64› hzero).symm
    · cases h₃
  | case5 c₁ c₂ c₃ c₄ rest ih =>
    obtain ⟨a, ha, h₁⟩ := Option.bind_eq_some_iff.1 h
    obtain ⟨b, hb, h₂⟩ := Option.bind_eq_some_iff.1 h₁
    obtain ⟨c, hc, h₃⟩ := Option.bind_eq_some_iff.1 h₂
    obtain ⟨d, hd, h₄⟩ := Option.bind_eq_some_iff.1 h₃
    obtain ⟨more, hmore, h₅⟩ := Option.bind_eq_some_iff.1 h₄
    obtain ⟨rfl, ha⟩ := eq_character_of_digit? ha
    obtain ⟨rfl, hb⟩ := eq_character_of_digit? hb
    obtain ⟨rfl, hc⟩ := eq_character_of_digit? hc
    obtain ⟨rfl, hd⟩ := eq_character_of_digit? hd
    cases h₅
    -- The first four characters are the first three bytes, and the others are the rest.
    rw [encodeBody_four ‹a < 64› ‹b < 64› ‹c < 64› ‹d < 64›, ← ih hmore]

/-- What is written is read again. -/
theorem decodeBody_encodeBody (hf : f.Proper) (b : Bytes) :
    decodeBody f (encodeBody f b) = some b := by
  have ofNat_eq (d : UInt8) {n : Nat} (h : n = d.toNat) : UInt8.ofNat n = d := by
    rw [h, UInt8.ofNat_toNat]
  fun_induction encodeBody f b with
  | case1 => rfl
  | case2 a =>
    have ha := a.toNat_lt
    simp only [decodeBody, digit?_character hf (show a.toNat / 4 < 64 by omega),
      digit?_character hf (show a.toNat % 4 * 16 < 64 by omega), Option.bind_eq_bind,
      Option.bind_some]
    rw [if_pos (by omega), ofNat_eq a (by omega)]
  | case3 a b =>
    have ha := a.toNat_lt
    have hb := b.toNat_lt
    simp only [decodeBody, digit?_character hf (show a.toNat / 4 < 64 by omega),
      digit?_character hf (show a.toNat % 4 * 16 + b.toNat / 16 < 64 by omega),
      digit?_character hf (show b.toNat % 16 * 4 < 64 by omega), Option.bind_eq_bind,
      Option.bind_some]
    rw [if_pos (by omega), ofNat_eq a (by omega), ofNat_eq b (by omega)]
  | case4 a b c rest ih =>
    have ha := a.toNat_lt
    have hb := b.toNat_lt
    have hc := c.toNat_lt
    simp only [decodeBody, digit?_character hf (show a.toNat / 4 < 64 by omega),
      digit?_character hf (show a.toNat % 4 * 16 + b.toNat / 16 < 64 by omega),
      digit?_character hf (show b.toNat % 16 * 4 + c.toNat / 64 < 64 by omega),
      digit?_character hf (show c.toNat % 64 < 64 by omega), ih, Option.bind_eq_bind,
      Option.bind_some]
    rw [ofNat_eq a (by omega), ofNat_eq b (by omega), ofNat_eq c (by omega)]
    rfl

/-- All that is written are digits. -/
theorem isSome_digit?_of_mem (hf : f.Proper) {b : Bytes} {c : UInt8} (h : c ∈ encodeBody f b) :
    (digit? f c).isSome := by
  have written {n : Nat} (hn : n < 64) : (digit? f (character f n)).isSome := by
    rw [digit?_character hf hn]
    rfl
  fun_induction encodeBody f b with
  | case1 => cases h
  | case2 a =>
    have ha := a.toNat_lt
    simp only [List.mem_cons, List.not_mem_nil, or_false] at h
    rcases h with rfl | rfl
    all_goals exact written (by omega)
  | case3 a b =>
    have ha := a.toNat_lt
    have hb := b.toNat_lt
    simp only [List.mem_cons, List.not_mem_nil, or_false] at h
    rcases h with rfl | rfl | rfl
    all_goals exact written (by omega)
  | case4 a b c rest ih =>
    have ha := a.toNat_lt
    have hb := b.toNat_lt
    have hc := c.toNat_lt
    simp only [List.mem_cons] at h
    rcases h with rfl | rfl | rfl | rfl | h
    · exact written (by omega)
    · exact written (by omega)
    · exact written (by omega)
    · exact written (by omega)
    · exact ih h

/-- Up to the padding, a text is what is before the first character of padding. -/
theorem takeWhile_encode (hf : f.Proper) (b : Bytes) :
    (encode f b).takeWhile (· != padCharacter) = encodeBody f b := by
  have hbody : ∀ c ∈ encodeBody f b, (c != padCharacter) = true := by
    intro c hc
    have hdigit := isSome_digit?_of_mem hf hc
    refine bne_iff_ne.2 ?_
    rintro rfl
    rw [hf.padCharacter] at hdigit
    cases hdigit
  have hpadding (n : Nat) : (padding f n).takeWhile (· != padCharacter) = [] := by
    unfold padding
    split
    · simp
    · rfl
  rw [encode, List.takeWhile_append_of_pos hbody, hpadding, List.append_nil]

/-- A byte string is read from its own text only. -/
theorem decode_eq_some_iff (hf : f.Proper) {text b : Bytes} :
    decode f text = some b ↔ text = encode f b := by
  refine ⟨fun h => ?_, fun h => ?_⟩
  · simp only [decode] at h
    split at h
    · rename_i htext
      rw [encode, ← eq_encodeBody_of_decodeBody h]
      exact htext
    · cases h
  · subst h
    simp only [decode, takeWhile_encode hf]
    rw [encode, if_pos rfl, decodeBody_encodeBody hf]

end Attestation.Base64
