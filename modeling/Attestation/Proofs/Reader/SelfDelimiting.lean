import Attestation.Reader

/-!
# Self-delimiting readers

A reader is self-delimiting if what it takes does not depend on the bytes that follow: it takes the
same value from the bytes it took before, whatever comes after them (`Reader.Takes`). Then the end
of a value is found by reading it. The property passes to chains and loops of readers
(`selfDelimiting_pair`, `selfDelimiting_replicate`, `selfDelimiting_upTo`). A loop up to a mark is
bounded by the length of its whole input, so its case shows too that the bytes it takes are bound
enough (`upTo_bounded`). A loop up to the end of the input is not self-delimiting, but it takes the
values of two inputs from the one before the other (`all_append`).
-/

namespace Attestation

/-! ## Lengths -/

/-- Values that are written in at least a byte each are no more than the bytes. -/
theorem length_le_length_flatMap {α : Type} (write : α → Bytes) (h : ∀ x, write x ≠ [])
    (xs : List α) : xs.length ≤ (xs.flatMap write).length := by
  induction xs with
  | nil => exact Nat.le_refl 0
  | cons x xs ih =>
    have hx := List.length_pos_iff.2 (h x)
    rw [List.flatMap_cons, List.length_append, List.length_cons]
    omega

/-- What is written for one of the values is no longer than the whole. -/
theorem length_le_of_mem {α : Type} (write : α → Bytes) {x : α} {xs : List α} (h : x ∈ xs) :
    (write x).length ≤ (xs.flatMap write).length := by
  induction h with
  | head xs =>
    rw [List.flatMap_cons, List.length_append]
    exact Nat.le_add_right _ _
  | tail y _ ih =>
    rw [List.flatMap_cons, List.length_append]
    exact Nat.le_trans ih (Nat.le_add_left _ _)

namespace Reader

variable {α β : Type}

/-- The reader takes exactly `front`, as `x`, whatever follows. -/
def Takes (read : Reader α) (front : Bytes) (x : α) : Prop :=
  ∀ rest, read (front ++ rest) = some (x, rest)

/-- What the reader takes, it takes whatever follows. -/
def SelfDelimiting (read : Reader α) : Prop :=
  ∀ b x rest, read b = some (x, rest) → ∃ front, b = front ++ rest ∧ read.Takes front x

/-- What takes given bytes as a value reads them alone, and nothing is left. -/
theorem Takes.read_eq {read : Reader α} {front : Bytes} {x : α} (h : read.Takes front x) :
    read front = some (x, []) := by
  simpa using h []

/-- A self-delimiting reader takes exactly the bytes that it reads with nothing after them. -/
theorem SelfDelimiting.takes_iff {read : Reader α} (h : read.SelfDelimiting) {front : Bytes}
    {x : α} : read.Takes front x ↔ read front = some (x, []) := by
  refine ⟨Takes.read_eq, fun hx => ?_⟩
  obtain ⟨front', rfl, htakes⟩ := h _ _ _ hx
  rwa [List.append_nil]

/-- A reader that needs a byte takes one. -/
theorem Takes.ne_nil {read : Reader α} {front : Bytes} {x : α} (hnil : read [] = none)
    (h : read.Takes front x) : front ≠ [] := by
  rintro rfl
  have := h.read_eq
  rw [hnil] at this
  cases this

/-! ## Single readers -/

/-- A value that is not read is followed by all of the input. -/
theorem SelfDelimiting.pure (x : α) : SelfDelimiting fun b => some (x, b) := by
  rintro b y rest ⟨⟩
  exact ⟨[], rfl, fun _ => rfl⟩

/-- A reader that always fails has nothing that could be continued. -/
theorem SelfDelimiting.failure : SelfDelimiting (fun _ => none : Reader α) :=
  fun _ _ _ h => nomatch h

/-- A byte is the same whatever follows. -/
theorem selfDelimiting_byte : byte.SelfDelimiting := by
  intro b d rest h
  cases b with
  | nil => cases h
  | cons d' b =>
    cases h
    exact ⟨[d], rfl, fun _ => rfl⟩

/-- A number of bytes is the same whatever follows. -/
theorem selfDelimiting_splitAt? (n : Nat) : SelfDelimiting (Bytes.splitAt? n) := by
  intro b x rest h
  obtain ⟨rfl, rfl⟩ := Bytes.splitAt?_eq_some h
  exact ⟨x, rfl, Bytes.splitAt?_append x⟩

/-- A number of a given length is the same whatever follows. -/
theorem selfDelimiting_number (n : Nat) : (number n).SelfDelimiting := by
  intro b x rest h
  obtain ⟨⟨digits, rest'⟩, hs, hx⟩ := Option.map_eq_some_iff.1 h
  cases hx
  obtain ⟨front, rfl, hfront⟩ := selfDelimiting_splitAt? n _ _ _ hs
  exact ⟨front, rfl, fun rest => by simp [number, hfront rest]⟩

/-! ## Chains and loops -/

/-- One value and then another end where the second one does. -/
theorem selfDelimiting_pair {first : Reader α} {second : Reader β} (hfirst : first.SelfDelimiting)
    (hsecond : second.SelfDelimiting) : (pair first second).SelfDelimiting := by
  intro b p rest h
  obtain ⟨⟨x, b₁⟩, hx, h⟩ := Option.bind_eq_some_iff.1 h
  obtain ⟨⟨y, b₂⟩, hy, h⟩ := Option.bind_eq_some_iff.1 h
  cases h
  obtain ⟨front, rfl, hfront⟩ := hfirst _ _ _ hx
  obtain ⟨more, rfl, hmore⟩ := hsecond _ _ _ hy
  exact ⟨front ++ more, by simp, fun rest => by simp [pair, hfront _, hmore _]⟩

/-- As many values as told end where the last one does. -/
theorem selfDelimiting_replicate {read : Reader α} (hread : read.SelfDelimiting) (count : Nat) :
    (replicate read count).SelfDelimiting := by
  induction count with
  | zero =>
    rintro b xs rest ⟨⟩
    exact ⟨[], rfl, fun _ => rfl⟩
  | succ count ih =>
    intro b xs rest h
    obtain ⟨⟨x, b₁⟩, hx, h⟩ := Option.bind_eq_some_iff.1 h
    obtain ⟨⟨xs', b₂⟩, hxs, h⟩ := Option.bind_eq_some_iff.1 h
    cases h
    obtain ⟨front, rfl, hfront⟩ := hread _ _ _ hx
    obtain ⟨more, rfl, hmore⟩ := ih _ _ _ hxs
    exact ⟨front ++ more, by simp, fun rest => by simp [replicate, hfront _, hmore _]⟩

/-- A mark that ends a loop over `read`: it takes at least a byte, whatever follows, and where a
value comes next instead, its bytes alone tell that the mark does not. -/
structure Mark (read : Reader α) (mark : Bytes → Option Bytes) : Prop where
  taken : ∀ b rest, mark b = some rest →
    ∃ front, front ≠ [] ∧ b = front ++ rest ∧ ∀ rest, mark (front ++ rest) = some rest
  absent : ∀ front x, read.Takes front x → ∀ rest rest',
    mark (front ++ rest) = none → mark (front ++ rest') = none

/-- What a loop up to a mark takes, it takes whatever follows and under every bound from the number
of its bytes on: each step takes a byte. -/
theorem upTo_bounded {read : Reader α} {mark : Bytes → Option Bytes} (hread : read.SelfDelimiting)
    (hnil : read [] = none) (hmark : Mark read mark) (bound : Nat) (b : Bytes) (xs : List α)
    (rest : Bytes) (h : upTo mark read bound b = some (xs, rest)) :
    ∃ front, b = front ++ rest ∧ ∀ bound' rest', front.length ≤ bound' →
      upTo mark read bound' (front ++ rest') = some (xs, rest') := by
  induction bound generalizing b xs with
  | zero => cases h
  | succ bound ih =>
    rw [upTo] at h
    cases hm : mark b with
    | some rest₁ =>
      simp only [hm, Option.some.injEq, Prod.mk.injEq] at h
      obtain ⟨rfl, rfl⟩ := h
      obtain ⟨front, hne, rfl, hfront⟩ := hmark.taken _ _ hm
      refine ⟨front, rfl, fun bound' rest' hle => ?_⟩
      have := List.length_pos_iff.2 hne
      obtain ⟨n, rfl⟩ : ∃ n, bound' = n + 1 := ⟨bound' - 1, by omega⟩
      simp [upTo, hfront]
    | none =>
      simp only [hm] at h
      obtain ⟨⟨x, b₁⟩, hx, h⟩ := Option.bind_eq_some_iff.1 h
      obtain ⟨⟨xs', b₂⟩, hxs, h⟩ := Option.bind_eq_some_iff.1 h
      cases h
      obtain ⟨front, rfl, hfront⟩ := hread _ _ _ hx
      obtain ⟨more, rfl, hmore⟩ := ih _ _ hxs
      refine ⟨front ++ more, by simp, fun bound' rest' hle => ?_⟩
      have := List.length_pos_iff.2 (hfront.ne_nil hnil)
      rw [List.length_append] at hle
      obtain ⟨n, rfl⟩ : ∃ n, bound' = n + 1 := ⟨bound' - 1, by omega⟩
      -- The mark is still absent where other bytes follow, since a value stands before them.
      have habsent := hmark.absent _ _ hfront _ (more ++ rest') hm
      rw [List.append_assoc, upTo, habsent]
      simp [hfront _, hmore n rest' (by omega)]

/-- A loop up to a mark, bounded by the length of its input. -/
theorem selfDelimiting_upTo {read : Reader α} {mark : Bytes → Option Bytes}
    (hread : read.SelfDelimiting) (hnil : read [] = none) (hmark : Mark read mark) :
    SelfDelimiting fun b => upTo mark read b.length b := by
  intro b xs rest h
  obtain ⟨front, rfl, hfront⟩ := upTo_bounded hread hnil hmark _ _ _ _ h
  exact ⟨front, rfl, fun rest' => hfront _ rest' (by simp)⟩

/-! ## Up to the end of the input -/

section
variable {read : Reader α} {b : Bytes} {x : α}

/-- A reader that needs input takes some of it. -/
theorem SelfDelimiting.length_lt (hread : read.SelfDelimiting) (hnil : read [] = none)
    {rest : Bytes} (h : read b = some (x, rest)) : rest.length < b.length := by
  obtain ⟨front, rfl, hfront⟩ := hread _ _ _ h
  have := List.length_pos_iff.2 (hfront.ne_nil hnil)
  rw [List.length_append]
  omega

/-- Every bound from the length of the input on is as good as this length. -/
theorem all_of_le (hread : read.SelfDelimiting) (hnil : read [] = none) {bound : Nat}
    (h : b.length ≤ bound) : all read bound b = all read b.length b := by
  induction bound using Nat.strongRecOn generalizing b with
  | ind bound ih =>
    cases b with
    | nil => cases bound <;> rfl
    | cons d b =>
      rw [List.length_cons] at h
      obtain ⟨n, rfl⟩ : ∃ n, bound = n + 1 := ⟨bound - 1, by omega⟩
      rw [List.length_cons, all, all]
      cases hx : read (d :: b) with
      | none => rfl
      | some p =>
        have hlt := hread.length_lt hnil hx
        rw [List.length_cons] at hlt
        simp only [Option.bind_eq_bind, Option.bind_some]
        rw [ih n (by omega) (by omega), ih b.length (by omega) (by omega)]

/-- The first value comes before those of the other bytes. -/
theorem all_of_read (hread : read.SelfDelimiting) (hnil : read [] = none) {rest : Bytes}
    (h : read b = some (x, rest)) :
    all read b.length b = (all read rest.length rest).map (x :: ·) := by
  have hlt := hread.length_lt hnil h
  cases b with
  | nil => cases hnil.symm.trans h
  | cons d b =>
    rw [List.length_cons] at hlt ⊢
    simp only [all, h, Option.bind_eq_bind, Option.bind_some]
    rw [all_of_le hread hnil (by omega)]
    cases all read rest.length rest <;> rfl

/-- A first value that cannot be read is none of a list. -/
theorem all_of_none (hne : b ≠ []) (h : read b = none) : all read b.length b = none := by
  cases b with
  | nil => exact absurd rfl hne
  | cons d b =>
    simp only [List.length_cons, all, h, Option.bind_eq_bind, Option.bind_none]

/-- Where an input ends at a boundary, the values of another one follow. -/
theorem all_append (hread : read.SelfDelimiting) (hnil : read [] = none) {xs : List α}
    (h : all read b.length b = some xs) (more : Bytes) :
    all read (b ++ more).length (b ++ more) = (all read more.length more).map (xs ++ ·) := by
  induction xs generalizing b with
  | nil =>
    cases b with
    | nil => simp
    | cons d b =>
      obtain ⟨⟨x, rest⟩, -, h⟩ := Option.bind_eq_some_iff.1 h
      obtain ⟨xs, -, h⟩ := Option.bind_eq_some_iff.1 h
      cases h
  | cons x xs ih =>
    cases hx : read b with
    | none =>
      cases b with
      | nil => cases h
      | cons d b =>
        rw [all_of_none (List.cons_ne_nil d b) hx] at h
        cases h
    | some p =>
      obtain ⟨y, rest⟩ := p
      rw [all_of_read hread hnil hx] at h
      obtain ⟨ys, hys, h⟩ := Option.map_eq_some_iff.1 h
      cases h
      obtain ⟨front, rfl, hfront⟩ := hread _ _ _ hx
      rw [List.append_assoc, all_of_read hread hnil (hfront (rest ++ more)), ih hys,
        Option.map_map]
      rfl

/-- Values that are taken one by one are taken up to the end, under every bound from there on. -/
theorem all_flatMap {β : Type} (hnil : read [] = none) {write : β → Bytes} {value : β → α}
    {ys : List β} (h : ∀ y ∈ ys, read.Takes (write y) (value y)) {bound : Nat}
    (hbound : (ys.flatMap write).length ≤ bound) :
    all read bound (ys.flatMap write) = some (ys.map value) := by
  induction ys generalizing bound with
  | nil => cases bound <;> rfl
  | cons y ys ih =>
    obtain ⟨hy, hys⟩ := List.forall_mem_cons.1 h
    have hread := hy (ys.flatMap write)
    rw [List.flatMap_cons] at hbound ⊢
    cases hwrite : write y with
    | nil => exact absurd hwrite (hy.ne_nil hnil)
    | cons d t =>
      rw [hwrite, List.cons_append] at hread hbound
      rw [List.length_cons, List.length_append] at hbound
      obtain ⟨n, rfl⟩ : ∃ n, bound = n + 1 := ⟨bound - 1, by omega⟩
      rw [List.cons_append]
      simp only [all, hread, Option.bind_eq_bind, Option.bind_some, ih hys (by omega : _ ≤ n),
        Option.pure_def, List.map_cons]

/-- A loop that goes on as long as values can be taken takes as many as one up to the end. -/
theorem many_of_all (hnil : read [] = none) {bound : Nat} {b : Bytes} {xs : List α}
    (h : all read bound b = some xs) : many read bound b = (xs, []) := by
  induction bound generalizing b xs with
  | zero =>
    cases b with
    | nil =>
      cases h
      rfl
    | cons d t => cases h
  | succ bound ih =>
    cases b with
    | nil =>
      cases h
      rw [many, hnil]
    | cons d t =>
      obtain ⟨⟨x, rest⟩, hx, h⟩ := Option.bind_eq_some_iff.1 h
      obtain ⟨ys, hys, h⟩ := Option.bind_eq_some_iff.1 h
      cases h
      rw [many, hx]
      simp only [ih hys]

end

end Reader

end Attestation
