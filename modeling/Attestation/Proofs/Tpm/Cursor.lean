import Attestation.Proofs.Number
import Attestation.Proofs.Result
import Attestation.Tpm.Cursor

/-!
# What a cursor passes

A step of `Tpm.Read` that succeeds passes some bytes and stands behind them: `Cursor.Passes`. Each
primitive step is characterized by the bytes that it passes (`Read.bytes_eq_ok` to
`Read.finish_eq_ok`) and by what is missing where it fails (`Read.bytes_eq_error` and
`Read.finish_eq_error`), and chained steps pass the bytes of the one before those of the other
(`Cursor.Passes.trans` and `Cursor.Passes.split`). A step that passes exactly the bytes of one
layout, whatever follows them, `Follows` it; it reads the same in a structure that goes on
(`Read.Local`). All the steps fail on malformed input only (`Read.RaisesMalformed`).
-/

namespace Attestation.Tpm

variable {α β : Type}

/-- Between the two places stand these bytes. -/
structure Cursor.Passes (c : Cursor) (b : Bytes) (c' : Cursor) : Prop where
  rest : c.rest = b ++ c'.rest
  offset : c'.offset = c.offset + b.length

namespace Cursor.Passes

/-- A cursor passes nothing on the way to itself. -/
theorem refl (c : Cursor) : c.Passes [] c :=
  ⟨rfl, rfl⟩

/-- What is passed on two ways in a row is passed on both together. -/
theorem trans {c c₁ c₂ : Cursor} {a b : Bytes} (ha : c.Passes a c₁) (hb : c₁.Passes b c₂) :
    c.Passes (a ++ b) c₂ :=
  ⟨by rw [ha.rest, hb.rest, List.append_assoc],
    by rw [hb.offset, ha.offset, List.length_append, Nat.add_assoc]⟩

/-- A place between two parts of what is passed. -/
theorem split {c c₂ : Cursor} {a b : Bytes} (h : c.Passes (a ++ b) c₂) :
    ∃ c₁, c.Passes a c₁ ∧ c₁.Passes b c₂ :=
  ⟨⟨c.offset + a.length, b ++ c₂.rest⟩, ⟨by rw [h.rest, List.append_assoc], rfl⟩,
    rfl, by rw [h.offset, List.length_append, Nat.add_assoc]⟩

/-- A cursor that passes nothing stays where it is. -/
theorem eq_of_nil {c c' : Cursor} (h : c.Passes [] c') : c' = c := by
  obtain ⟨hrest, hoffset⟩ := h
  cases c
  cases c'
  simp_all

/-- From the beginning of a structure to a place. -/
theorem start_iff {b a : Bytes} {c : Cursor} :
    (Cursor.start b).Passes a c ↔ b = a ++ c.rest ∧ c.offset = a.length := by
  refine ⟨fun h => ?_, fun h => ?_⟩
  · rcases h with ⟨hrest, hoffset⟩
    exact ⟨hrest, by rw [hoffset]; exact Nat.zero_add _⟩
  · rcases h with ⟨hrest, hoffset⟩
    exact ⟨hrest, by rw [hoffset]; exact (Nat.zero_add _).symm⟩

/-- What has been passed since the beginning of a structure lies before the place, and what is left
behind it. -/
theorem inside {data b : Bytes} {c : Cursor} (h : (Cursor.start data).Passes b c) :
    c.offset ≤ data.length ∧ c.rest = data.drop c.offset ∧ b = data.take c.offset := by
  obtain ⟨hdata, hoffset⟩ := start_iff.1 h
  rw [hdata, hoffset]
  exact ⟨by simp, List.drop_left.symm, List.take_left.symm⟩

/-- From the beginning of a structure to its end. -/
theorem whole (b : Bytes) : ∃ c, c.rest = [] ∧ (Cursor.start b).Passes b c :=
  ⟨⟨b.length, []⟩, rfl, start_iff.2 ⟨(List.append_nil b).symm, rfl⟩⟩

end Cursor.Passes

/-- The same place in a structure that goes on with more bytes. -/
def Cursor.extend (c : Cursor) (t : Bytes) : Cursor :=
  ⟨c.offset, c.rest ++ t⟩

/-- Bytes after the input are bytes after the rest of it. -/
theorem Cursor.start_append (b t : Bytes) : Cursor.start (b ++ t) = (Cursor.start b).extend t :=
  rfl

/-- What is passed does not depend on the bytes after the rest. -/
theorem Cursor.Passes.extend {c c' : Cursor} {b : Bytes} (h : c.Passes b c') (t : Bytes) :
    (c.extend t).Passes b (c'.extend t) := by
  refine ⟨?_, h.offset⟩
  show c.rest ++ t = b ++ (c'.rest ++ t)
  rw [h.rest, List.append_assoc]

namespace Read

/-! ## Chains of steps -/

/-- A chain of reads succeeds if the first one does and the others do on its value, from where it
ends. -/
theorem bind_eq_ok {read : Read α} {f : α → Read β} {c c' : Cursor} {y : β} :
    (read >>= f) c = .ok y c' ↔ ∃ x c₁, read c = .ok x c₁ ∧ f x c₁ = .ok y c' := by
  show EStateM.bind read f c = _ ↔ _
  unfold EStateM.bind
  cases read c with
  | ok x c₁ =>
    refine ⟨fun h => ?_, fun h => ?_⟩
    · exact ⟨x, c₁, rfl, h⟩
    · rcases h with ⟨_, _, ⟨⟩, h⟩
      exact h
  | error e c₁ => simp

/-- After a step that succeeds come the others. -/
theorem bind_of_eq_ok {read : Read α} {f : α → Read β} {c c₁ : Cursor} {x : α}
    (h : read c = .ok x c₁) : (read >>= f) c = f x c₁ := by
  show EStateM.bind read f c = _
  rw [EStateM.bind, h]

/-- After a step that fails comes nothing. -/
theorem bind_of_eq_error {read : Read α} {f : α → Read β} {c c₁ : Cursor} {e : Error}
    (h : read c = .error e c₁) : (read >>= f) c = .error e c₁ := by
  show EStateM.bind read f c = _
  rw [EStateM.bind, h]

/-- A value that is not read moves no cursor. -/
theorem pure_eq_ok {x y : α} {c c' : Cursor} :
    (pure x : Read α) c = .ok y c' ↔ x = y ∧ c = c' := by
  show EStateM.Result.ok x c = _ ↔ _
  simp

/-- Chained steps fail where the first one does, or where the second one does after it. -/
theorem bind_eq_error {read : Read α} {f : α → Read β} {c c' : Cursor} {e : Error} :
    (read >>= f) c = .error e c' ↔
      read c = .error e c' ∨ ∃ x c₁, read c = .ok x c₁ ∧ f x c₁ = .error e c' := by
  cases h : read c with
  | ok x c₁ =>
    rw [bind_of_eq_ok h]
    refine ⟨fun hf => .inr ⟨x, c₁, rfl, hf⟩, fun hf => ?_⟩
    obtain ⟨⟨⟩⟩ | ⟨_, _, ⟨⟩, hf⟩ := hf
    exact hf
  | error e₁ c₁ =>
    rw [bind_of_eq_error h]
    simp

/-- Where only the value of a step is changed after it, nothing else fails. -/
theorem bind_pure_eq_error {read : Read α} {f : α → β} {c c' : Cursor} {e : Error} :
    (read >>= fun x => pure (f x)) c = .error e c' ↔ read c = .error e c' := by
  rw [bind_eq_error]
  refine or_iff_left fun h => ?_
  obtain ⟨_, _, -, ⟨⟩⟩ := h

/-- Bytes are parsed by a read from their beginning. -/
theorem parse_eq_ok {read : Read α} {b : Bytes} {x : α} :
    read.parse b = .ok x ↔ ∃ c, read (.start b) = .ok x c := by
  unfold parse
  cases read (.start b) with
  | ok y c => simp
  | error e c => simp

/-! ## Layouts -/

/-- The step passes exactly the bytes of the layout of what it reads, whatever follows. -/
def Follows (read : Read α) (layout : Bytes → α → Prop) : Prop :=
  ∀ c x c', read c = .ok x c' ↔ ∃ b, layout b x ∧ c.Passes b c'

/-! ## Primitive steps -/

variable {field : String} {c c' : Cursor}

/-- As many bytes as told are read, and they are those that are passed. -/
theorem bytes_eq_ok {n : Nat} {b : Bytes} :
    bytes n field c = .ok b c' ↔ b.length = n ∧ c.Passes b c' := by
  refine ⟨fun h => ?_, fun h => ?_⟩
  · unfold bytes at h
    split at h
    · rename_i front rest hsplit
      obtain ⟨hrest, hlength⟩ := Bytes.splitAt?_eq_some hsplit
      cases h
      exact ⟨hlength, hrest, by rw [hlength]⟩
    · cases h
  · rcases h with ⟨rfl, hrest, hoffset⟩
    obtain ⟨offset', rest'⟩ := c'
    obtain rfl : offset' = c.offset + b.length := hoffset
    rw [bytes, hrest, Bytes.splitAt?_append]

/-- Bytes are refused exactly if there are too few left, with the offset at which they start. -/
theorem bytes_eq_error {n : Nat} {e : Error} :
    bytes n field c = .error e c' ↔
      c.rest.length < n ∧ e = .malformedInput (.truncated field c.offset) ∧ c' = c := by
  rw [← Bytes.splitAt?_eq_none, bytes]
  cases c.rest.splitAt? n with
  | some parts => simp
  | none => simp [eq_comm]

/-- A word is passed as its number in the bytes of its width. -/
theorem word_eq_ok {W : Type} {n : Nat} {ofNat : Nat → W} {toNat : W → Nat}
    (hofNat : ∀ w, ofNat (toNat w) = w) (hlt : ∀ w, toNat w < 256 ^ n)
    (htoNat : ∀ m < 256 ^ n, toNat (ofNat m) = m) {w : W} :
    (do return ofNat (← bytes n field).toNat : Read W) c = .ok w c' ↔
      c.Passes (Bytes.ofNat n (toNat w)) c' := by
  rw [bind_eq_ok]
  constructor
  · rintro ⟨b, c₁, hb, hw⟩
    obtain ⟨rfl, hc⟩ := bytes_eq_ok.1 hb
    obtain ⟨rfl, rfl⟩ := pure_eq_ok.1 hw
    rwa [htoNat _ b.toNat_lt, Bytes.ofNat_toNat]
  · intro hc
    refine ⟨_, c', bytes_eq_ok.2 ⟨Bytes.length_ofNat .., hc⟩, pure_eq_ok.2 ⟨?_, rfl⟩⟩
    rw [Bytes.toNat_ofNat (hlt w), hofNat]

/-- An integer of one byte is read from the bytes that it is written with. -/
theorem word8_eq_ok {w : UInt8} :
    word8 field c = .ok w c' ↔ c.Passes (Bytes.ofNat 1 w.toNat) c' :=
  word_eq_ok (fun _ => UInt8.ofNat_toNat) UInt8.toNat_lt fun _ => UInt8.toNat_ofNat_of_lt'

/-- An integer of two bytes is read from the bytes that it is written with. -/
theorem word16_eq_ok {w : UInt16} :
    word16 field c = .ok w c' ↔ c.Passes (Bytes.ofNat 2 w.toNat) c' :=
  word_eq_ok (fun _ => UInt16.ofNat_toNat) UInt16.toNat_lt fun _ => UInt16.toNat_ofNat_of_lt'

/-- An integer of four bytes is read from the bytes that it is written with. -/
theorem word32_eq_ok {w : UInt32} :
    word32 field c = .ok w c' ↔ c.Passes (Bytes.ofNat 4 w.toNat) c' :=
  word_eq_ok (fun _ => UInt32.ofNat_toNat) UInt32.toNat_lt fun _ => UInt32.toNat_ofNat_of_lt'

/-- An integer of eight bytes is read from the bytes that it is written with. -/
theorem word64_eq_ok {w : UInt64} :
    word64 field c = .ok w c' ↔ c.Passes (Bytes.ofNat 8 w.toNat) c' :=
  word_eq_ok (fun _ => UInt64.ofNat_toNat) UInt64.toNat_lt fun _ => UInt64.toNat_ofNat_of_lt'

/-- A word that is not kept is any two bytes. -/
theorem discard_word16_eq_ok {u : Unit} :
    (discard <| word16 field) c = .ok u c' ↔ ∃ b : Bytes, b.length = 2 ∧ c.Passes b c' := by
  refine ⟨fun h => ?_, fun h => ?_⟩
  · obtain ⟨w, c₁, hw, hc⟩ : ∃ w c₁, word16 field c = .ok w c₁ ∧ c₁ = c' := by
      revert h
      show EStateM.map _ (word16 field) c = _ → _
      unfold EStateM.map
      cases word16 field c with
      | ok w c₁ => simp
      | error e c₁ => simp
    subst hc
    exact ⟨_, Bytes.length_ofNat .., word16_eq_ok.1 hw⟩
  · rcases h with ⟨b, hb, hc⟩
    have hw : word16 field c = .ok (UInt16.ofNat b.toNat) c' := by
      have hlt := b.toNat_lt
      rw [hb] at hlt
      rwa [word16_eq_ok, UInt16.toNat_ofNat_of_lt' hlt, ← hb, Bytes.ofNat_toNat]
    show EStateM.map _ (word16 field) c = _
    rw [EStateM.map, hw]

/-- Bytes with their length before them are read together with it. -/
theorem sized_eq_ok {b : Bytes} :
    sized field c = .ok b c' ↔ b.length < 65536 ∧ c.Passes (sizedBytes b) c' := by
  rw [sized, bind_eq_ok]
  refine ⟨fun h => ?_, fun h => ?_⟩
  · rcases h with ⟨length, c₁, hlength, hb⟩
    obtain ⟨hbytes, hcb⟩ := bytes_eq_ok.1 hb
    have hca := word16_eq_ok.1 hlength
    rw [← hbytes] at hca
    exact ⟨by rw [hbytes]; exact length.toNat_lt, hca.trans hcb⟩
  · rcases h with ⟨hlt, hc⟩
    obtain ⟨c₁, hca, hcb⟩ := hc.split
    have htoNat : (UInt16.ofNat b.length).toNat = b.length := UInt16.toNat_ofNat_of_lt' hlt
    refine ⟨UInt16.ofNat b.length, c₁, word16_eq_ok.2 ?_, bytes_eq_ok.2 ⟨?_, hcb⟩⟩
    · rwa [htoNat]
    · exact htoNat.symm

/-- The remainder is all the bytes that are left. -/
theorem remainder_eq_ok {b : Bytes} :
    remainder c = .ok b c' ↔ c.Passes b c' ∧ c'.rest = [] := by
  refine ⟨fun h => ?_, fun h => ?_⟩
  · rcases h with ⟨⟩
    exact ⟨⟨(List.append_nil _).symm, rfl⟩, rfl⟩
  · rcases h with ⟨⟨hrest, hoffset⟩, hend⟩
    obtain ⟨offset', rest'⟩ := c'
    cases hend
    obtain rfl : b = c.rest := by rw [hrest]; exact (List.append_nil _).symm
    obtain rfl : offset' = c.offset + c.rest.length := hoffset
    rfl

/-- Nothing may be left at the end, and nothing is read there. -/
theorem finish_eq_ok {structureName : String} {u : Unit} :
    finish structureName c = .ok u c' ↔ c.rest = [] ∧ c' = c := by
  unfold finish
  split
  · rename_i hend
    refine ⟨fun h => ?_, fun h => ?_⟩
    · rcases h with ⟨⟩
      exact ⟨hend, rfl⟩
    · rcases h with ⟨-, rfl⟩
      rfl
  · rename_i hrest
    refine ⟨fun h => ?_, fun h => ?_⟩
    · rcases h with ⟨⟩
    · rcases h with ⟨hend, -⟩
      exact absurd hend hrest

/-- What is left at the end is refused, with its length and the name of the structure. -/
theorem finish_eq_error {structureName : String} {e : Error} :
    finish structureName c = .error e c' ↔
      c.rest ≠ [] ∧ e = .malformedInput (.trailing c.rest.length structureName) ∧ c' = c := by
  unfold finish
  split <;> simp [*, eq_comm]

/-! ## Structures that go on -/

/-- What the step reads, it reads as well when the structure goes on. -/
def Local (read : Read α) : Prop :=
  ∀ {c x c'}, read c = .ok x c' → ∀ t, read (c.extend t) = .ok x (c'.extend t)

/-- A read that is told by a layout does not look at what follows. -/
theorem Follows.isLocal {read : Read α} {layout : Bytes → α → Prop} (h : Follows read layout) :
    Local read := by
  intro c x c' hread t
  obtain ⟨b, hb, hc⟩ := (h c x c').1 hread
  exact (h _ _ _).2 ⟨b, hb, hc.extend t⟩

/-- An integer of two bytes does not depend on what follows. -/
theorem isLocal_word16 (field : String) : Local (word16 field) :=
  fun h t => word16_eq_ok.2 ((word16_eq_ok.1 h).extend t)

/-- An integer of four bytes does not depend on what follows. -/
theorem isLocal_word32 (field : String) : Local (word32 field) :=
  fun h t => word32_eq_ok.2 ((word32_eq_ok.1 h).extend t)

/-- An integer of eight bytes does not depend on what follows. -/
theorem isLocal_word64 (field : String) : Local (word64 field) :=
  fun h t => word64_eq_ok.2 ((word64_eq_ok.1 h).extend t)

/-- Bytes with their length before them do not depend on what follows. -/
theorem isLocal_sized (field : String) : Local (sized field) := by
  intro c x c' h t
  obtain ⟨hlength, hc⟩ := sized_eq_ok.1 h
  exact sized_eq_ok.2 ⟨hlength, hc.extend t⟩

/-- Where a structure ends, one that goes on is refused. -/
theorem finish_extend {structureName : String} {c : Cursor} (hend : c.rest = []) {t : Bytes}
    (ht : t ≠ []) :
    finish structureName (c.extend t) =
      .error (.malformedInput (.trailing t.length structureName)) (c.extend t) := by
  have hrest : (c.extend t).rest = t := by
    show c.rest ++ t = t
    rw [hend, List.nil_append]
  rw [finish, hrest, if_neg ht]

/-! ## Failure -/

/-- The step fails on malformed input only. -/
def RaisesMalformed (read : Read α) : Prop :=
  ∀ c e c', read c = .error e c' → e.IsMalformed

namespace RaisesMalformed

/-- A value that is not read raises nothing. -/
theorem pure (x : α) : RaisesMalformed (Pure.pure x) :=
  fun _ _ _ h => nomatch h

/-- A chain of reads raises what its reads raise. -/
theorem bind {read : Read α} {f : α → Read β} (hread : RaisesMalformed read)
    (hf : ∀ x, RaisesMalformed (f x)) : RaisesMalformed (read >>= f) := by
  intro c e c' h
  rcases bind_eq_error.1 h with hfirst | ⟨x, c₁, -, hrest⟩
  · exact hread c e c' hfirst
  · exact hf x c₁ e c' hrest

/-- Bytes that are not there are malformed input. -/
theorem bytes (n : Nat) (field : String) : RaisesMalformed (Read.bytes n field) := by
  intro c e c' h
  obtain ⟨-, rfl, -⟩ := bytes_eq_error.1 h
  exact .intro _

/-- An integer of one byte is read like the byte. -/
theorem word8 (field : String) : RaisesMalformed (Read.word8 field) :=
  (bytes 1 field).bind fun _ => pure _

/-- An integer of two bytes is read like the bytes. -/
theorem word16 (field : String) : RaisesMalformed (Read.word16 field) :=
  (bytes 2 field).bind fun _ => pure _

/-- An integer of four bytes is read like the bytes. -/
theorem word32 (field : String) : RaisesMalformed (Read.word32 field) :=
  (bytes 4 field).bind fun _ => pure _

/-- An integer of eight bytes is read like the bytes. -/
theorem word64 (field : String) : RaisesMalformed (Read.word64 field) :=
  (bytes 8 field).bind fun _ => pure _

/-- Bytes with their length before them are read in two steps. -/
theorem sized (field : String) : RaisesMalformed (Read.sized field) :=
  (word16 field).bind fun length => bytes length.toNat field

/-- The remainder is always there. -/
theorem remainder : RaisesMalformed Read.remainder :=
  fun _ _ _ h => nomatch h

/-- Bytes that are left are malformed input. -/
theorem finish (structureName : String) : RaisesMalformed (Read.finish structureName) := by
  intro c e c' h
  obtain ⟨-, rfl, -⟩ := finish_eq_error.1 h
  exact .intro _

/-- What fails on malformed input only, fails so from the beginning of a structure. -/
theorem parse {read : Read α} (h : RaisesMalformed read) (b : Bytes) :
    Raises Error.IsMalformed (read.parse b) := by
  intro e he
  unfold Read.parse at he
  split at he
  · cases he
  · rename_i e' c' hread
    cases he
    exact h _ _ _ hread

end RaisesMalformed

end Read

end Attestation.Tpm
