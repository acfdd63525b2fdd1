import Attestation.Cbor.Reader
import Attestation.Proofs.Reader.SelfDelimiting

/-!
# Items are self-delimiting

An item is read to its end and no further: `Value.read` takes the same item from the same bytes,
whatever follows them (`Value.selfDelimiting_read`). Three of its steps look ahead: the breaks that
close indefinite strings, arrays and maps, and the head after a bignum tag. Each of them looks at no
more than the head of what comes next, and that head is part of the item.
-/

namespace Attestation.Cbor

open Reader (Takes SelfDelimiting Mark)

/-! ## Heads -/

/-- An argument in the following bytes has a length of its own. -/
theorem Argument.selfDelimiting_readFollowing (width : Nat) :
    (readFollowing width).SelfDelimiting := by
  intro b argument rest h
  obtain ⟨⟨n, b₁⟩, hn, h⟩ := Option.bind_eq_some_iff.1 h
  cases h
  obtain ⟨front, rfl, hfront⟩ := Reader.selfDelimiting_number _ _ _ _ hn
  exact ⟨front, rfl, fun rest => by simp [readFollowing, hfront _]⟩

/-- Every argument is told by its first byte and those that this one asks for. -/
theorem Argument.selfDelimiting_read (minor : Nat) : (read minor).SelfDelimiting := by
  unfold read
  split
  any_goals exact selfDelimiting_readFollowing _
  any_goals exact .failure
  any_goals exact .pure _

/-- A head ends with its argument. -/
theorem Head.selfDelimiting_read : Head.read.SelfDelimiting := by
  intro b head rest h
  obtain ⟨⟨first, b₁⟩, hfirst, h⟩ := Option.bind_eq_some_iff.1 h
  obtain ⟨⟨argument, b₂⟩, hargument, h⟩ := Option.bind_eq_some_iff.1 h
  cases h
  obtain ⟨front, rfl, hfront⟩ := Reader.selfDelimiting_byte _ _ _ hfirst
  obtain ⟨more, rfl, hmore⟩ := Argument.selfDelimiting_read _ _ _ _ hargument
  exact ⟨front ++ more, by simp, fun rest => by simp [Head.read, hfront _, hmore _]⟩

/-- There is no head without a byte. -/
theorem Head.read_nil : Head.read [] = none := rfl

/-! ## Strings -/

/-- What the segments of a string take, they take whatever follows and under every bound from the
number of their bytes on: each segment has a head. -/
theorem segments_bounded (major : Major) (bound opened : Nat) (b : Bytes) (xs : List Bytes)
    (rest : Bytes) (h : segments major bound opened b = some (xs, rest)) :
    ∃ front, b = front ++ rest ∧ ∀ bound' rest', front.length ≤ bound' →
      segments major bound' opened (front ++ rest') = some (xs, rest') := by
  induction bound generalizing opened b xs with
  | zero => cases h
  | succ bound ih =>
    obtain ⟨⟨head, b₁⟩, hhead, hsegments⟩ := Option.bind_eq_some_iff.1 h
    obtain ⟨front, rfl, hfront⟩ := Head.selfDelimiting_read _ _ _ hhead
    have hpos := List.length_pos_iff.2 (hfront.ne_nil Head.read_nil)
    -- After the head comes `more`, under a bound that is one less.
    have step (more : Bytes) (hmore : ∀ bound' rest', more.length ≤ bound' →
        segments major (bound' + 1) opened (front ++ (more ++ rest')) = some (xs, rest')) :
        ∀ bound' rest', (front ++ more).length ≤ bound' →
          segments major bound' opened (front ++ more ++ rest') = some (xs, rest') := by
      intro bound' rest' hle
      rw [List.length_append] at hle
      obtain ⟨n, rfl⟩ : ∃ n, bound' = n + 1 := ⟨bound' - 1, by omega⟩
      rw [List.append_assoc]
      exact hmore n rest' (by omega)
    dsimp only at hsegments
    split at hsegments
    · rename_i hbreak
      split at hsegments
      · rename_i hopened
        cases hsegments
        refine ⟨front ++ [], by simp, step [] fun n rest' _ => ?_⟩
        simp [segments, hfront _, hbreak, hopened]
      · rename_i hopened
        obtain ⟨more, rfl, hmore⟩ := ih _ _ _ hsegments
        refine ⟨front ++ more, by simp, step more fun n rest' hle => ?_⟩
        simp [segments, hfront _, hbreak, hopened, hmore n rest' hle]
    · rename_i hbreak
      split at hsegments
      · rename_i hmajor
        split at hsegments
        · rename_i hvalue
          obtain ⟨more, rfl, hmore⟩ := ih _ _ _ hsegments
          refine ⟨front ++ more, by simp, step more fun n rest' hle => ?_⟩
          simp [segments, hfront _, hbreak, hmajor, hvalue, hmore n rest' hle]
        · rename_i length hvalue
          obtain ⟨⟨segment, b₂⟩, hsegment, hrest⟩ := Option.bind_eq_some_iff.1 hsegments
          obtain ⟨⟨xs', b₃⟩, hxs, hrest⟩ := Option.bind_eq_some_iff.1 hrest
          cases hrest
          obtain ⟨rfl, rfl⟩ := Bytes.splitAt?_eq_some hsegment
          obtain ⟨more, rfl, hmore⟩ := ih _ _ _ hxs
          refine ⟨front ++ (segment ++ more), by simp, step _ fun n rest' hle => ?_⟩
          rw [List.length_append] at hle
          simp [segments, hfront _, hbreak, hmajor, hvalue, Bytes.splitAt?_append,
            hmore n rest' (by omega)]
      · cases hsegments

/-- The chunks of a string end where its head or its break says. -/
theorem selfDelimiting_strings (major : Major) (argument : Argument) :
    (strings major argument).SelfDelimiting := by
  intro b xs rest h
  unfold strings at h
  split at h
  · rename_i n hvalue
    obtain ⟨⟨front, b₁⟩, hfront, h⟩ := Option.map_eq_some_iff.1 h
    cases h
    obtain ⟨rfl, rfl⟩ := Bytes.splitAt?_eq_some hfront
    exact ⟨front, rfl, fun rest => by simp [strings, hvalue, Bytes.splitAt?_append]⟩
  · rename_i hvalue
    obtain ⟨front, rfl, hfront⟩ := segments_bounded _ _ _ _ _ _ h
    refine ⟨front, rfl, fun rest' => ?_⟩
    simp only [strings, hvalue]
    exact hfront _ rest' (by simp)

/-! ## Arrays and maps -/

/-- The break that closes an array or a map is told by its one byte. -/
theorem mark_afterBreak? {α : Type} {read : Reader α} (hnil : read [] = none) :
    Mark read afterBreak? where
  taken b rest h := by
    cases b with
    | nil => cases h
    | cons d b =>
      simp only [afterBreak?] at h
      split at h
      · rename_i hd
        cases h
        exact ⟨[d], by simp, rfl, fun rest => by simp [afterBreak?, hd]⟩
      · cases h
  absent front x hfront rest rest' h := by
    cases front with
    | nil => exact absurd rfl (hfront.ne_nil hnil)
    | cons d front =>
      simp only [List.cons_append, afterBreak?] at h ⊢
      split at h
      · cases h
      · rename_i hd
        simp [hd]

/-- Items in a row end where the head or the break says. -/
theorem selfDelimiting_items {α : Type} {read : Reader α} (hread : read.SelfDelimiting)
    (hnil : read [] = none) (argument : Argument) : (items read argument).SelfDelimiting := by
  unfold items
  cases argument.value? with
  | some n => exact Reader.selfDelimiting_replicate hread n
  | none => exact Reader.selfDelimiting_upTo hread hnil (mark_afterBreak? hnil)

/-! ## Items -/

namespace Value

/-- A reader of items: it is self-delimiting and begins with a head. -/
structure ItemReader (read : Reader Value) : Prop where
  selfDelimiting : read.SelfDelimiting
  head : ∀ b r, read b = some r → ∃ r', Head.read b = some r'

/-- No item is read from nothing. -/
theorem ItemReader.nil {read : Reader Value} (h : ItemReader read) : read [] = none := by
  cases hr : read [] with
  | none => rfl
  | some r =>
    obtain ⟨r', hr'⟩ := h.head _ _ hr
    cases hr'

/-- Whether a bignum follows is told by the head that comes next. -/
theorem bignumContent?_append {b : Bytes} {head : Head} {b₁ : Bytes}
    (h : Head.read b = some (head, b₁)) (rest : Bytes) :
    bignumContent? (b ++ rest) = bignumContent? b := by
  obtain ⟨front, rfl, hfront⟩ := Head.selfDelimiting_read _ _ _ h
  unfold bignumContent?
  rw [List.append_assoc, hfront, hfront]
  rcases head with ⟨major, argument⟩
  cases major <;> rfl

/-- The content of a bignum is self-delimiting, with the head that announces it. -/
theorem bignumContent?_takes {b : Bytes} {content : Reader Bytes}
    (hb : bignumContent? b = some content) {magnitude rest : Bytes}
    (h : content b = some (magnitude, rest)) :
    ∃ front, b = front ++ rest ∧ ∀ rest',
      ∃ content', bignumContent? (front ++ rest') = some content' ∧
        content' (front ++ rest') = some (magnitude, rest') := by
  unfold bignumContent? at hb
  split at hb
  · rename_i argument b₁ hhead
    obtain ⟨n, hn, hb⟩ := Option.bind_eq_some_iff.1 hb
    split at hb
    · rename_i hle
      cases hb
      obtain ⟨front, rfl, hfront⟩ := Head.selfDelimiting_read _ _ _ hhead
      simp only [hfront _, Option.bind_eq_bind, Option.bind_some] at h
      obtain ⟨rfl, rfl⟩ := Bytes.splitAt?_eq_some h
      refine ⟨front ++ magnitude, by simp, fun rest' => ?_⟩
      rw [List.append_assoc]
      simp [bignumContent?, hfront _, hn, hle, Bytes.splitAt?_append]
    · cases hb
  · cases hb

/-- A tagged item ends where the item inside it does. -/
theorem selfDelimiting_readTagged {inner : Option (Reader Value)}
    (hinner : ∀ read ∈ inner, ItemReader read) (number : UInt64) :
    (readTagged inner number).SelfDelimiting := by
  intro b v rest h
  unfold readTagged at h
  split at h
  · rename_i content hcontent
    obtain ⟨hbignum, hcontent⟩ : (number = bignumTag ∨ number = negativeBignumTag) ∧
        bignumContent? b = some content := by
      split at hcontent
      · exact ⟨‹_›, hcontent⟩
      · cases hcontent
    obtain ⟨⟨magnitude, b₁⟩, hmagnitude, h⟩ := Option.bind_eq_some_iff.1 h
    obtain ⟨w, hw, h⟩ := Option.bind_eq_some_iff.1 h
    cases h
    obtain ⟨front, rfl, hfront⟩ := bignumContent?_takes hcontent hmagnitude
    refine ⟨front, rfl, fun rest' => ?_⟩
    obtain ⟨content', hpeek, htakes⟩ := hfront rest'
    simp [readTagged, hbignum, hpeek, htakes, hw]
  · rename_i hpeek
    obtain ⟨read, hread, h⟩ := Option.bind_eq_some_iff.1 h
    obtain ⟨⟨w, b₁⟩, hw, h⟩ := Option.bind_eq_some_iff.1 h
    cases h
    obtain ⟨front, rfl, hfront⟩ := (hinner read hread).selfDelimiting _ _ _ hw
    -- The inner item has a head, so the look ahead sees nothing beyond that item.
    obtain ⟨⟨head, b₂⟩, hhead⟩ := (hinner read hread).head _ _ hfront.read_eq
    rw [bignumContent?_append hhead] at hpeek
    refine ⟨front, rfl, fun rest' => ?_⟩
    unfold readTagged
    rw [bignumContent?_append hhead, hpeek]
    simp [hread, hfront _]

/-- What follows a head ends where the head says. -/
theorem selfDelimiting_readContent {inner : Option (Reader Value)}
    (hinner : ∀ read ∈ inner, ItemReader read) (head : Head) :
    (readContent inner head).SelfDelimiting := by
  intro b v rest h
  rcases head with ⟨major, argument⟩
  cases major with
  | unsigned | negative =>
    obtain ⟨n, hn, h⟩ := Option.bind_eq_some_iff.1 h
    cases h
    exact ⟨[], rfl, fun rest => by simp_all [readContent]⟩
  | other =>
    obtain ⟨w, hw, h⟩ := Option.bind_eq_some_iff.1 h
    cases h
    exact ⟨[], rfl, fun rest => by simp_all [readContent]⟩
  | bytes =>
    obtain ⟨⟨parts, b₁⟩, hparts, h⟩ := Option.bind_eq_some_iff.1 h
    cases h
    obtain ⟨front, rfl, hfront⟩ := selfDelimiting_strings _ _ _ _ _ hparts
    exact ⟨front, rfl, fun rest => by simp [readContent, hfront _]⟩
  | text =>
    obtain ⟨⟨parts, b₁⟩, hparts, h⟩ := Option.bind_eq_some_iff.1 h
    obtain ⟨texts, htexts, h⟩ := Option.bind_eq_some_iff.1 h
    cases h
    obtain ⟨front, rfl, hfront⟩ := selfDelimiting_strings _ _ _ _ _ hparts
    exact ⟨front, rfl, fun rest => by simp [readContent, hfront _, htexts]⟩
  | array =>
    obtain ⟨read, hread, h⟩ := Option.bind_eq_some_iff.1 h
    obtain ⟨⟨vs, b₁⟩, hvs, h⟩ := Option.bind_eq_some_iff.1 h
    cases h
    have hr := hinner read hread
    obtain ⟨front, rfl, hfront⟩ := selfDelimiting_items hr.selfDelimiting hr.nil _ _ _ _ hvs
    exact ⟨front, rfl, fun rest => by simp [readContent, hread, hfront _]⟩
  | map =>
    obtain ⟨read, hread, h⟩ := Option.bind_eq_some_iff.1 h
    obtain ⟨⟨vs, b₁⟩, hvs, h⟩ := Option.bind_eq_some_iff.1 h
    cases h
    have hr := hinner read hread
    -- A map is a row of pairs of items.
    have hnil : Reader.pair read read [] = none := by simp [Reader.pair, hr.nil]
    obtain ⟨front, rfl, hfront⟩ := selfDelimiting_items
      (Reader.selfDelimiting_pair hr.selfDelimiting hr.selfDelimiting) hnil _ _ _ _ hvs
    exact ⟨front, rfl, fun rest => by simp [readContent, hread, hfront _]⟩
  | tag =>
    obtain ⟨n, hn, h⟩ := Option.bind_eq_some_iff.1 h
    obtain ⟨front, rfl, hfront⟩ := selfDelimiting_readTagged hinner _ _ _ _ h
    exact ⟨front, rfl, fun rest => by simp_all [readContent, hfront _]⟩

/-- A reader of items is one if the reader of the items inside is. -/
theorem itemReader_readWith {inner : Option (Reader Value)}
    (hinner : ∀ read ∈ inner, ItemReader read) : ItemReader (readWith inner) where
  selfDelimiting b v rest h := by
    obtain ⟨⟨head, b₁⟩, hhead, hcontent⟩ := Option.bind_eq_some_iff.1 h
    obtain ⟨front, rfl, hfront⟩ := Head.selfDelimiting_read _ _ _ hhead
    obtain ⟨more, rfl, hmore⟩ := selfDelimiting_readContent hinner _ _ _ _ hcontent
    exact ⟨front ++ more, by simp, fun rest => by simp [readWith, hfront _, hmore _]⟩
  head b r h := by
    obtain ⟨r', hr', -⟩ := Option.bind_eq_some_iff.1 h
    exact ⟨r', hr'⟩

/-- Items are read at every depth. -/
theorem itemReader_readAt (depth : Nat) : ItemReader (readAt depth) := by
  induction depth with
  | zero => exact itemReader_readWith nofun
  | succ depth ih =>
    refine itemReader_readWith fun read hread => ?_
    cases hread
    exact ih

/-- An item ends where reading it ends, whatever follows. -/
theorem selfDelimiting_read : Value.read.SelfDelimiting :=
  (itemReader_readAt maxDepth).selfDelimiting

end Value

end Attestation.Cbor
