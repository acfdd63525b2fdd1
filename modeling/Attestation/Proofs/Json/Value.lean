import Attestation.Proofs.Json.Scalar

/-!
# The texts of JSON values

`Value.Text` is the grammar of values, each with the white space before it, and `Value.IsText` the
one of whole texts. A text is read exactly if it is in the grammar, and as the value that it is the
text of (`parse?_eq_some`). Arrays and objects may nest as deep as they like: each of them takes a
byte, so that the reader never reaches its bound on the depth (`readWithin_append`).
-/

namespace Attestation.Json

/-! ## Grammar -/

section Grammar

variable {α : Type}

/-- Parts with commas between them and the closing character after the last one. The text of a part
has the white space before it. -/
inductive PartsText (close : UInt8) (P : α → Bytes → Prop) : List α → Bytes → Prop
  | last {x : α} {t ws : Bytes} : P x t → Blanks ws → PartsText close P [x] (t ++ (ws ++ [close]))
  | cons {x : α} {xs : List α} {t ws u : Bytes} :
    P x t → Blanks ws → PartsText close P xs u →
    PartsText close P (x :: xs) (t ++ (ws ++ comma :: u))

/-- The inside of an array or an object with the closing character: white space, or parts. -/
inductive ListText (close : UInt8) (P : α → Bytes → Prop) : List α → Bytes → Prop
  | nil {ws : Bytes} : Blanks ws → ListText close P [] (ws ++ [close])
  | parts {xs : List α} {t : Bytes} : PartsText close P xs t → ListText close P xs t

/-- A member of an object: its name as a string, a colon and its value. -/
inductive MemberText (P : α → Bytes → Prop) : Bytes × α → Bytes → Prop
  | intro {raw before between t : Bytes} {x : α} :
    Blanks before → RawString raw → Blanks between → P x t →
    MemberText P (raw, x) (before ++ quote :: (raw ++ quote :: (between ++ colon :: t)))

end Grammar

namespace Value

/-- The text of a value that is no array and no object. -/
inductive ScalarText : Value → Bytes → Prop
  | nullWord : ScalarText null (Bytes.ofText "null")
  | trueWord : ScalarText (bool true) (Bytes.ofText "true")
  | falseWord : ScalarText (bool false) (Bytes.ofText "false")
  | number {x : Number} {t : Bytes} : x.Text t → ScalarText (number x) t
  | string {raw : Bytes} : RawString raw → ScalarText (string raw) (quote :: (raw ++ [quote]))

/-- The text of a value with the white space before it. -/
inductive Text : Value → Bytes → Prop
  | scalar {v : Value} {ws t : Bytes} : Blanks ws → ScalarText v t → Text v (ws ++ t)
  | array {vs : List Value} {ws t : Bytes} :
    Blanks ws → ListText arrayMarks.2 Text vs t → Text (array vs) (ws ++ arrayMarks.1 :: t)
  | object {members : List (Bytes × Value)} {ws t : Bytes} :
    Blanks ws → ListText objectMarks.2 (MemberText Text) members t →
    Text (object members) (ws ++ objectMarks.1 :: t)

/-- The bytes are a text of the value, with white space around it. -/
def IsText (v : Value) (b : Bytes) : Prop :=
  ∃ t ws, v.Text t ∧ Blanks ws ∧ b = t ++ ws

end Value

/-! ## What follows a value -/

theorem endsNumber_nil : EndsNumber [] :=
  nofun

/-- White space does not continue a number. -/
theorem EndsNumber.blanks_append {ws rest : Bytes} (h : EndsNumber rest) (hws : Blanks ws) :
    EndsNumber (ws ++ rest) := by
  cases ws with
  | nil => exact h
  | cons d ws =>
    rintro _ ⟨⟩
    have hd := hws d (by simp)
    simp only [isBlank, Bool.or_eq_true, beq_iff_eq] at hd
    rcases hd with ((rfl | rfl) | rfl) | rfl <;> exact ⟨rfl, by decide, by decide, by decide⟩

/-- A comma does not continue a number. -/
theorem endsNumber_comma (rest : Bytes) : EndsNumber (comma :: rest) := by
  rintro _ ⟨⟩
  exact ⟨rfl, by decide, by decide, by decide⟩

/-- The character closes an array or an object. -/
def IsClose (close : UInt8) : Prop :=
  close = arrayMarks.2 ∨ close = objectMarks.2

namespace IsClose

variable {close : UInt8}

theorem isBlank_eq_false (h : IsClose close) : isBlank close = false := by
  rcases h with rfl | rfl <;> rfl

theorem ne_comma (h : IsClose close) : comma ≠ close := by
  rcases h with rfl | rfl <;> decide

/-- A closing character does not continue a number. -/
theorem endsNumber (h : IsClose close) (rest : Bytes) : EndsNumber (close :: rest) := by
  rintro _ ⟨⟩
  rcases h with rfl | rfl <;> exact ⟨rfl, by decide, by decide, by decide⟩

end IsClose

/-! ## Arrays and objects -/

section Lists

variable {α : Type} {close : UInt8} {P Q : α → Bytes → Prop} {read : Reader α}

/-- Each part is shorter than the parts with the character that closes them. -/
theorem PartsText.imp {xs : List α} {u : Bytes} (h : PartsText close P xs u)
    (himp : ∀ x t, t.length < u.length → P x t → Q x t) : PartsText close Q xs u := by
  induction h with
  | last hx hws =>
    refine .last (himp _ _ ?_ hx) hws
    simp only [List.length_append, List.length_cons]
    omega
  | cons hx hws _ ih =>
    refine .cons (himp _ _ ?_ hx) hws (ih fun x t ht => himp x t ?_)
    · simp only [List.length_append, List.length_cons]
      omega
    · simp only [List.length_append, List.length_cons]
      omega

/-- Only what is written of the parts of a list matters, and that is shorter than the list. -/
theorem ListText.imp {xs : List α} {u : Bytes} (h : ListText close P xs u)
    (himp : ∀ x t, t.length < u.length → P x t → Q x t) : ListText close Q xs u := by
  cases h with
  | nil hws => exact .nil hws
  | parts hparts => exact .parts (hparts.imp himp)

/-- The value of a member is shorter than the member. -/
theorem MemberText.imp {m : Bytes × α} {u : Bytes} (h : MemberText P m u)
    (himp : ∀ x t, t.length < u.length → P x t → Q x t) : MemberText Q m u := by
  obtain ⟨hbefore, hraw, hbetween, hx⟩ := h
  refine .intro hbefore hraw hbetween (himp _ _ ?_ hx)
  simp only [List.length_append, List.length_cons]
  omega

/-- The parts that are taken are written in what is taken. -/
theorem exists_text_of_readParts (hclose : IsClose close)
    (hread : ∀ b x rest, read b = some (x, rest) → ∃ t, P x t ∧ b = t ++ rest) {bound : Nat}
    {b rest : Bytes} {xs : List α} (h : readParts close read bound b = some (xs, rest)) :
    ∃ t, PartsText close P xs t ∧ b = t ++ rest := by
  induction bound generalizing b xs with
  | zero => cases h
  | succ bound ih =>
    obtain ⟨⟨x, b₁⟩, hx, h₁⟩ := Option.bind_eq_some_iff.1 h
    obtain ⟨t, ht, rfl⟩ := hread _ _ _ hx
    dsimp only at h₁
    split at h₁
    · rename_i b₂ hmark
      cases h₁
      obtain ⟨ws, hws, rfl⟩ := (readMark_eq_some hclose.isBlank_eq_false).1 hmark
      exact ⟨_, .last ht hws, by simp⟩
    · obtain ⟨b₂, hmark, h₂⟩ := Option.bind_eq_some_iff.1 h₁
      obtain ⟨⟨xs, b₃⟩, hxs, h₃⟩ := Option.bind_eq_some_iff.1 h₂
      cases h₃
      obtain ⟨ws, hws, rfl⟩ := (readMark_eq_some rfl).1 hmark
      obtain ⟨u, hu, rfl⟩ := ih hxs
      exact ⟨_, .cons ht hws hu, by simp⟩

/-- Parts are taken as a whole, and the bound is not reached if it is the length. -/
theorem readParts_append (hclose : IsClose close)
    (hread : ∀ x t rest, P x t → EndsNumber rest → read (t ++ rest) = some (x, rest))
    {xs : List α} {u : Bytes} (h : PartsText close P xs u) {bound : Nat} (hbound : u.length ≤ bound)
    (rest : Bytes) : readParts close read bound (u ++ rest) = some (xs, rest) := by
  induction h generalizing bound with
  | @last x t ws hx hws =>
    simp only [List.length_append, List.length_cons] at hbound
    have hpos : bound ≠ 0 := by omega
    obtain ⟨bound, rfl⟩ := Nat.exists_eq_add_one_of_ne_zero hpos
    have hafter := hread x t _ hx ((hclose.endsNumber rest).blanks_append hws)
    have hmark : readMark close (ws ++ close :: rest) = some rest :=
      (readMark_eq_some hclose.isBlank_eq_false).2 ⟨ws, hws, rfl⟩
    simp [readParts, hafter, hmark]
  | @cons x xs t ws u hx hws _ ih =>
    simp only [List.length_append, List.length_cons] at hbound
    have hpos : bound ≠ 0 := by omega
    obtain ⟨bound, rfl⟩ := Nat.exists_eq_add_one_of_ne_zero hpos
    have hafter := hread x t _ hx ((endsNumber_comma (u ++ rest)).blanks_append hws)
    -- The list is not closed here, so that the comma is looked for.
    have hnone : readMark close (ws ++ comma :: (u ++ rest)) = none :=
      readMark_eq_none rfl hclose.ne_comma hws _
    have hmark : readMark comma (ws ++ comma :: (u ++ rest)) = some (u ++ rest) :=
      (readMark_eq_some rfl).2 ⟨ws, hws, rfl⟩
    have hxs : readParts close read bound (u ++ rest) = some (xs, rest) := ih (by omega)
    simp [readParts, hafter, hnone, hmark, hxs]

/-- What is taken as the inside of an array or an object is one. -/
theorem exists_text_of_readList (hclose : IsClose close)
    (hread : ∀ b x rest, read b = some (x, rest) → ∃ t, P x t ∧ b = t ++ rest)
    {b rest : Bytes} {xs : List α} (h : readList close read b = some (xs, rest)) :
    ∃ t, ListText close P xs t ∧ b = t ++ rest := by
  unfold readList at h
  split at h
  · rename_i b' hmark
    cases h
    obtain ⟨ws, hws, rfl⟩ := (readMark_eq_some hclose.isBlank_eq_false).1 hmark
    exact ⟨_, .nil hws, by simp⟩
  · obtain ⟨t, ht, hb⟩ := exists_text_of_readParts hclose hread h
    exact ⟨t, .parts ht, hb⟩

/-- The inside of an array or an object is taken as a whole. No part may be written so that it
starts with the closing character. -/
theorem readList_append (hclose : IsClose close)
    (hread : ∀ x t rest, P x t → EndsNumber rest → read (t ++ rest) = some (x, rest))
    (hopen : ∀ x t rest, P x t → readMark close (t ++ rest) = none) {xs : List α} {u : Bytes}
    (h : ListText close P xs u) (rest : Bytes) :
    readList close read (u ++ rest) = some (xs, rest) := by
  cases h with
  | @nil ws hws =>
    have hmark : readMark close (ws ++ [close] ++ rest) = some rest :=
      (readMark_eq_some hclose.isBlank_eq_false).2 ⟨ws, hws, by simp⟩
    rw [readList, hmark]
  | parts hparts =>
    have hmark : readMark close (u ++ rest) = none := by
      cases hparts with
      | last hx _ =>
        rw [List.append_assoc]
        exact hopen _ _ _ hx
      | cons hx _ _ =>
        rw [List.append_assoc]
        exact hopen _ _ _ hx
    rw [readList, hmark]
    refine readParts_append hclose hread hparts ?_ rest
    simp

/-- What is taken as a member is one. -/
theorem exists_text_of_readMember
    (hread : ∀ b x rest, read b = some (x, rest) → ∃ t, P x t ∧ b = t ++ rest)
    {b rest : Bytes} {m : Bytes × α} (h : readMember read b = some (m, rest)) :
    ∃ t, MemberText P m t ∧ b = t ++ rest := by
  obtain ⟨b₁, hquote, h₁⟩ := Option.bind_eq_some_iff.1 h
  obtain ⟨⟨raw, b₂⟩, hname, h₂⟩ := Option.bind_eq_some_iff.1 h₁
  obtain ⟨b₃, hcolon, h₃⟩ := Option.bind_eq_some_iff.1 h₂
  obtain ⟨⟨x, b₄⟩, hx, h₄⟩ := Option.bind_eq_some_iff.1 h₃
  cases h₄
  obtain ⟨before, hbefore, rfl⟩ := (readMark_eq_some rfl).1 hquote
  obtain ⟨hraw, rfl⟩ := readString_eq_some.1 hname
  obtain ⟨between, hbetween, rfl⟩ := (readMark_eq_some rfl).1 hcolon
  obtain ⟨t, ht, rfl⟩ := hread _ _ _ hx
  exact ⟨_, .intro hbefore hraw hbetween ht, by simp⟩

/-- Where a member is written, no object ends. -/
theorem MemberText.readMark_eq_none {m : Bytes × α} {t : Bytes} (h : MemberText P m t)
    (rest : Bytes) : readMark objectMarks.2 (t ++ rest) = none := by
  obtain ⟨hbefore, -, -, -⟩ := h
  rw [List.append_assoc]
  exact Json.readMark_eq_none rfl (by decide) hbefore _

/-- A member is taken as a whole, if its value is. -/
theorem readMember_append
    (hread : ∀ x t rest, P x t → EndsNumber rest → read (t ++ rest) = some (x, rest))
    (m : Bytes × α) (t rest : Bytes) (h : MemberText P m t) (hrest : EndsNumber rest) :
    readMember read (t ++ rest) = some (m, rest) := by
  obtain ⟨hbefore, hraw, hbetween, hx⟩ := h
  rename_i raw before between t x
  have hquote (b : Bytes) : readMark quote (before ++ quote :: b) = some b :=
    (readMark_eq_some rfl).2 ⟨before, hbefore, rfl⟩
  have hname (b : Bytes) : readString (raw ++ quote :: b) = some (raw, b) :=
    readString_eq_some.2 ⟨hraw, rfl⟩
  have hcolon (b : Bytes) : readMark colon (between ++ colon :: b) = some b :=
    (readMark_eq_some rfl).2 ⟨between, hbetween, rfl⟩
  simp [readMember, hquote, hname, hcolon, hread x t rest hx hrest]

end Lists

/-! ## Values -/

/-- A word is taken exactly where it stands. -/
theorem readWord_eq_some {word : String} {b rest : Bytes} :
    readWord word b = some rest ↔ b = Bytes.ofText word ++ rest := by
  rw [readWord]
  simp only [Option.ite_none_right_eq_some, Option.some.injEq]
  refine ⟨?_, ?_⟩
  · rintro ⟨⟨t, rfl⟩, h⟩
    rw [← h, List.drop_left]
  · rintro rfl
    exact ⟨List.prefix_append _ _, List.drop_left⟩

theorem readWord_append (word : String) (rest : Bytes) :
    readWord word (Bytes.ofText word ++ rest) = some rest :=
  readWord_eq_some.2 rfl

/-- A digit is another byte than one that is no digit. -/
theorem ne_of_digit? {d e : UInt8} {n : Nat} (hd : digit? d = some n) (he : digit? e = none) :
    d ≠ e := by
  rintro rfl
  rw [hd] at he
  cases he

/-- A number starts with a minus sign or a digit. -/
theorem Number.Text.exists_cons {x : Number} {t : Bytes} (h : x.Text t) :
    ∃ d t', t = d :: t' ∧ (d = 0x2d ∨ ∃ n, digit? d = some n) := by
  obtain ⟨hsign, hwhole, -, -⟩ := h
  generalize x.negative = negative at hsign
  generalize x.whole = whole at hwhole
  cases hsign with
  | minus => exact ⟨_, _, rfl, .inl rfl⟩
  | none =>
    cases hwhole with
    | zero => exact ⟨_, _, rfl, .inr ⟨0, rfl⟩⟩
    | @digits n ds _ hds =>
      exact ⟨_, _, rfl, .inr ⟨n, digit?_eq_some.2 ⟨hds n (by simp), rfl⟩⟩⟩

namespace Value

/-- A number does not start with any other byte. -/
theorem readScalar_eq_readNumber {x : Number} {t : Bytes} (h : x.Text t) (rest : Bytes) :
    readScalar (t ++ rest) = (readNumber (t ++ rest)).map fun (x, b) => (number x, b) := by
  obtain ⟨d, t, rfl, hd⟩ := h.exists_cons
  have hne {e : UInt8} (he : digit? e = none) (hminus : e ≠ 0x2d) : d ≠ e := by
    rcases hd with rfl | ⟨n, hn⟩
    · exact hminus.symm
    · exact ne_of_digit? hn he
  have hquote : d ≠ quote := hne rfl (by decide)
  have hn : d ≠ 0x6e := hne rfl (by decide)
  have ht : d ≠ 0x74 := hne rfl (by decide)
  have hf : d ≠ 0x66 := hne rfl (by decide)
  simp only [List.cons_append, readScalar, if_neg hquote, if_neg hn, if_neg ht, if_neg hf]

/-- What is taken as a value that is no array and no object is written as such a one. -/
theorem exists_text_of_readScalar {b rest : Bytes} {v : Value}
    (h : readScalar b = some (v, rest)) : ∃ t, ScalarText v t ∧ b = t ++ rest := by
  cases b with
  | nil => cases h
  | cons d b =>
    simp only [readScalar] at h
    split at h
    · rename_i hd
      obtain ⟨⟨raw, rest⟩, hread, heq⟩ := Option.map_eq_some_iff.1 h
      cases heq
      obtain ⟨hraw, rfl⟩ := readString_eq_some.1 hread
      exact ⟨_, .string hraw, by simp [hd]⟩
    split at h
    · obtain ⟨rest, hread, heq⟩ := Option.map_eq_some_iff.1 h
      cases heq
      exact ⟨_, .nullWord, readWord_eq_some.1 hread⟩
    split at h
    · obtain ⟨rest, hread, heq⟩ := Option.map_eq_some_iff.1 h
      cases heq
      exact ⟨_, .trueWord, readWord_eq_some.1 hread⟩
    split at h
    · obtain ⟨rest, hread, heq⟩ := Option.map_eq_some_iff.1 h
      cases heq
      exact ⟨_, .falseWord, readWord_eq_some.1 hread⟩
    · obtain ⟨⟨x, rest⟩, hread, heq⟩ := Option.map_eq_some_iff.1 h
      cases heq
      obtain ⟨t, ht, hb⟩ := exists_text_of_readNumber hread
      exact ⟨t, .number ht, hb⟩

/-- A value that is no array and no object is taken as a whole, if what follows does not continue
it. -/
theorem readScalar_append {v : Value} {t rest : Bytes} (h : ScalarText v t)
    (hrest : EndsNumber rest) : readScalar (t ++ rest) = some (v, rest) := by
  cases h with
  | nullWord =>
    have hread := readWord_append "null" rest
    obtain ⟨t, ht⟩ : ∃ t, Bytes.ofText "null" = 0x6e :: t := ⟨_, rfl⟩
    rw [ht, List.cons_append] at hread ⊢
    simp [readScalar, quote, hread]
  | trueWord =>
    have hread := readWord_append "true" rest
    obtain ⟨t, ht⟩ : ∃ t, Bytes.ofText "true" = 0x74 :: t := ⟨_, rfl⟩
    rw [ht, List.cons_append] at hread ⊢
    simp [readScalar, quote, hread]
  | falseWord =>
    have hread := readWord_append "false" rest
    obtain ⟨t, ht⟩ : ∃ t, Bytes.ofText "false" = 0x66 :: t := ⟨_, rfl⟩
    rw [ht, List.cons_append] at hread ⊢
    simp [readScalar, quote, hread]
  | number hx =>
    rw [readScalar_eq_readNumber hx, readNumber_append hx hrest]
    rfl
  | @string raw hraw =>
    have hread : readString (raw ++ quote :: rest) = some (raw, rest) :=
      readString_eq_some.2 ⟨hraw, rfl⟩
    rw [List.cons_append, List.append_assoc, readScalar, if_pos rfl]
    simp [hread]

/-- A value that is no array and no object starts with none of their marks, and not with white
space. -/
theorem ScalarText.exists_cons {v : Value} {t : Bytes} (h : ScalarText v t) :
    ∃ d t', t = d :: t' ∧ isBlank d = false ∧ d ≠ arrayMarks.1 ∧ d ≠ objectMarks.1 ∧
      d ≠ arrayMarks.2 := by
  cases h with
  | nullWord => exact ⟨_, _, rfl, by decide⟩
  | trueWord => exact ⟨_, _, rfl, by decide⟩
  | falseWord => exact ⟨_, _, rfl, by decide⟩
  | string _ => exact ⟨_, _, rfl, by decide⟩
  | number hx =>
    obtain ⟨d, t, rfl, rfl | ⟨n, hn⟩⟩ := hx.exists_cons
    · exact ⟨_, _, rfl, by decide⟩
    · refine ⟨d, t, rfl, ?_, ne_of_digit? hn rfl, ne_of_digit? hn rfl, ne_of_digit? hn rfl⟩
      simp [isBlank, ne_of_digit? hn (e := 0x20) rfl, ne_of_digit? hn (e := 0x09) rfl,
        ne_of_digit? hn (e := 0x0a) rfl, ne_of_digit? hn (e := 0x0d) rfl]

/-- Where a value is written, no array ends. -/
theorem Text.readMark_eq_none {v : Value} {t : Bytes} (h : v.Text t) (rest : Bytes) :
    readMark arrayMarks.2 (t ++ rest) = none := by
  cases h with
  | scalar hws hscalar =>
    obtain ⟨d, t, rfl, hblank, -, -, hne⟩ := hscalar.exists_cons
    rw [List.append_assoc]
    exact Json.readMark_eq_none hblank hne hws _
  | array hws _ =>
    rw [List.append_assoc]
    exact Json.readMark_eq_none rfl (by decide) hws _
  | object hws _ =>
    rw [List.append_assoc]
    exact Json.readMark_eq_none rfl (by decide) hws _

/-- What is taken as a value is the text of the value. -/
theorem exists_text_of_readWithin {bound : Nat} {b rest : Bytes} {v : Value}
    (h : readWithin bound b = some (v, rest)) : ∃ t, v.Text t ∧ b = t ++ rest := by
  have hscalar {b rest : Bytes} {v : Value} (h : readScalar (skipBlanks b) = some (v, rest)) :
      ∃ t, v.Text t ∧ b = t ++ rest := by
    obtain ⟨ws, hws, hb⟩ := exists_blanks b
    obtain ⟨t, ht, heq⟩ := exists_text_of_readScalar h
    exact ⟨ws ++ t, .scalar hws ht, by rw [List.append_assoc, ← heq, ← hb]⟩
  induction bound generalizing b rest v with
  | zero => exact hscalar h
  | succ bound ih =>
    have hread (b : Bytes) (v : Value) (rest : Bytes) (h : readWithin bound b = some (v, rest)) :
        ∃ t, v.Text t ∧ b = t ++ rest := ih h
    rw [readWithin] at h
    split at h
    · rename_i b' hmark
      obtain ⟨⟨vs, rest⟩, hlist, heq⟩ := Option.bind_eq_some_iff.1 h
      cases heq
      obtain ⟨ws, hws, rfl⟩ := (readMark_eq_some rfl).1 hmark
      obtain ⟨t, ht, rfl⟩ := exists_text_of_readList (.inl rfl) hread hlist
      exact ⟨_, .array hws ht, by simp⟩
    split at h
    · rename_i b' hmark
      obtain ⟨⟨members, rest⟩, hlist, heq⟩ := Option.bind_eq_some_iff.1 h
      cases heq
      obtain ⟨ws, hws, rfl⟩ := (readMark_eq_some rfl).1 hmark
      have hmember (b : Bytes) (m : Bytes × Value) (rest : Bytes)
          (h : readMember (readWithin bound) b = some (m, rest)) :
          ∃ t, MemberText Text m t ∧ b = t ++ rest := exists_text_of_readMember hread h
      obtain ⟨t, ht, rfl⟩ := exists_text_of_readList (.inr rfl) hmember hlist
      exact ⟨_, .object hws ht, by simp⟩
    · exact hscalar h

/-- A value takes at least one byte. -/
theorem Text.length_pos {v : Value} {t : Bytes} (h : v.Text t) : 0 < t.length := by
  cases h with
  | scalar _ hscalar =>
    obtain ⟨d, t, rfl, -⟩ := hscalar.exists_cons
    simp only [List.length_append, List.length_cons]
    omega
  | array _ _ =>
    simp only [List.length_append, List.length_cons]
    omega
  | object _ _ =>
    simp only [List.length_append, List.length_cons]
    omega

/-- The text of a value is taken as a whole, if what follows does not continue it. The bound is on
the depth, and each array or object takes a byte. -/
theorem readWithin_append {bound : Nat} {v : Value} {t rest : Bytes} (h : v.Text t)
    (hbound : t.length ≤ bound) (hrest : EndsNumber rest) :
    readWithin bound (t ++ rest) = some (v, rest) := by
  induction bound generalizing v t rest with
  | zero => exact absurd h.length_pos (Nat.not_lt.2 hbound)
  | succ bound ih =>
    have hread (v : Value) (t rest : Bytes) (h : v.Text t ∧ t.length ≤ bound)
        (hrest : EndsNumber rest) : readWithin bound (t ++ rest) = some (v, rest) :=
      ih h.1 h.2 hrest
    cases h with
    | scalar hws hscalar =>
      obtain ⟨d, t, rfl, hblank, harray, hobject, -⟩ := hscalar.exists_cons
      rw [List.append_assoc, List.cons_append, readWithin,
        Json.readMark_eq_none hblank harray hws _, Json.readMark_eq_none hblank hobject hws _,
        skipBlanks_append hws, skipBlanks_cons hblank]
      exact readScalar_append hscalar hrest
    | @array vs ws t hws hlist =>
      simp only [List.length_append, List.length_cons] at hbound
      -- The bracket takes a byte, so that what is inside is within the bound that is left.
      have hlist : ListText arrayMarks.2 (fun v t => v.Text t ∧ t.length ≤ bound) vs t :=
        hlist.imp fun v u hu hv => ⟨hv, by omega⟩
      have hmark : readMark arrayMarks.1 (ws ++ arrayMarks.1 :: (t ++ rest)) = some (t ++ rest) :=
        (readMark_eq_some rfl).2 ⟨ws, hws, rfl⟩
      have hvs := readList_append (.inl rfl) hread (fun v t rest h => h.1.readMark_eq_none rest)
        hlist rest
      rw [List.append_assoc, List.cons_append, readWithin, hmark]
      simp [hvs]
    | @object members ws t hws hlist =>
      simp only [List.length_append, List.length_cons] at hbound
      have hlist : ListText objectMarks.2
          (MemberText fun v t => v.Text t ∧ t.length ≤ bound) members t :=
        hlist.imp fun m u hu hm => hm.imp fun v t ht hv => ⟨hv, by omega⟩
      have hnone : readMark arrayMarks.1 (ws ++ objectMarks.1 :: (t ++ rest)) = none :=
        Json.readMark_eq_none rfl (by decide) hws _
      have hmark : readMark objectMarks.1 (ws ++ objectMarks.1 :: (t ++ rest)) = some (t ++ rest) :=
        (readMark_eq_some rfl).2 ⟨ws, hws, rfl⟩
      have hmembers := readList_append (.inr rfl) (readMember_append hread)
        (fun m t rest h => h.readMark_eq_none rest) hlist rest
      rw [List.append_assoc, List.cons_append, readWithin, hnone, hmark]
      simp [hmembers]

/-- A text is read exactly if it is in the grammar, and as the value that it is the text of. -/
theorem parse?_eq_some {b : Bytes} {v : Value} : parse? b = some v ↔ v.IsText b := by
  refine ⟨fun h => ?_, ?_⟩
  · obtain ⟨⟨v', rest⟩, hread, h₁⟩ := Option.bind_eq_some_iff.1 h
    obtain ⟨hrest, heq⟩ := Option.ite_none_right_eq_some.1 h₁
    cases heq
    obtain ⟨t, ht, rfl⟩ := exists_text_of_readWithin hread
    exact ⟨t, rest, ht, skipBlanks_eq_nil.1 hrest, rfl⟩
  · rintro ⟨t, ws, ht, hws, rfl⟩
    have hend : EndsNumber ws := by
      rw [← List.append_nil ws]
      exact endsNumber_nil.blanks_append hws
    have hread : read (t ++ ws) = some (v, ws) := readWithin_append ht (by simp) hend
    simp [parse?, hread, skipBlanks_eq_nil.2 hws]

example : (parse? (List.replicate 130 arrayMarks.1 ++ List.replicate 130 arrayMarks.2)).isSome =
    true := by
  decide +kernel

/-- A text is the text of one value only. -/
theorem IsText.unique {b : Bytes} {v v' : Value} (h : v.IsText b) (h' : v'.IsText b) : v = v' :=
  Option.some.inj ((parse?_eq_some.2 h).symm.trans (parse?_eq_some.2 h'))

/-! ## Members that are not read -/

/-- A member of another name is ignored, whatever its value holds and however deep it nests. -/
theorem members?_unread {names : List String} {front back : List (Bytes × Value)} {raw : Bytes}
    {v : Value} {name : String} (hname : stringText? raw = some name) (hunread : name ∉ names) :
    (object (front ++ (raw, v) :: back)).members? names =
      (object (front ++ back)).members? names := by
  simp only [members?, List.mapM_append, List.mapM_cons, hname, Option.pure_def,
    Option.bind_eq_bind, Option.bind_some, Option.bind_assoc]
  cases front.mapM fun m : Bytes × Value => (stringText? m.1).bind fun name => some (name, m.2)
  · rfl
  · cases back.mapM fun m : Bytes × Value => (stringText? m.1).bind fun name => some (name, m.2)
    · rfl
    · simp [hunread]

/-- A record is read alike without a member of another name. -/
theorem record?_unread {names : List String} {front back : List (Bytes × Value)} {raw : Bytes}
    {v : Value} {name : String} (hname : stringText? raw = some name) (hunread : name ∉ names) :
    (object (front ++ (raw, v) :: back)).record? names =
      (object (front ++ back)).record? names :=
  members?_unread hname hunread

end Value

end Attestation.Json
