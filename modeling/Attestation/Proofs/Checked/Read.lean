import Attestation.Checked.Tpm
import Attestation.Proofs.Tpm.Cursor

/-!
# Reading by offsets is reading at a cursor

A step that reads by offsets and the step that reads at a cursor go together: from a place that is
not behind the end of its structure the first one is never stopped and comes to such a place, and it
answers what the second one does (`CheckedRead.Simulates`). Chained steps go together if the single
ones do (`CheckedRead.Simulates.bind`), so whole structures follow from the primitive steps. The
answers agree only where offsets fit a word, that is for structures that fit the memory; elsewhere
the steps still stay in range.
-/

namespace Attestation.Tpm

variable {α β : Type}

namespace Place

/-- The beginning of the input is inside of it. -/
theorem inside_start (b : Bytes) : (start b).Inside :=
  Nat.zero_le _

/-- The end of a read is computed within 64 bits, and lies in the input. -/
theorem stop?_eq_some {p : Place} {n stop : Nat} :
    p.stop? n = some stop ↔ p.position + n = stop ∧ stop < 2 ^ 64 ∧ stop ≤ p.data.length := by
  simp only [stop?, Checked.addSize?, Option.filter_eq_some_iff, decide_eq_true_eq]
  split
  · simp only [Option.some.injEq]
    omega
  · simp only [reduceCtorEq, false_and, false_iff]
    omega

/-- Where offsets fit a word, only the end of the structure is in the way. -/
theorem lt_of_stop?_eq_none {p : Place} {n : Nat} (h : p.stop? n = none)
    (hsize : p.data.length < 2 ^ 64) : p.data.length < p.position + n := by
  refine Nat.lt_of_not_le fun hle => ?_
  have hstop := stop?_eq_some.2 ⟨rfl, Nat.lt_of_le_of_lt hle hsize, hle⟩
  rw [h] at hstop
  cases hstop

/-- The bytes behind a place, cut at an offset behind it. -/
theorem splitAt?_cursor {p : Place} {n : Nat} (h : p.position + n ≤ p.data.length) :
    p.cursor.rest.splitAt? n =
      some ((p.data.take (p.position + n)).drop p.position, p.data.drop (p.position + n)) := by
  have hle : n ≤ (p.data.drop p.position).length := by
    rw [List.length_drop]
    omega
  rw [cursor, Bytes.splitAt?, if_pos hle, List.drop_take, Nat.add_sub_cancel_left, List.drop_drop]

/-- What lies beyond the input cannot be split off from the rest of it. -/
theorem splitAt?_cursor_eq_none {p : Place} {n : Nat} (h : p.data.length < p.position + n)
    (hp : p.Inside) : p.cursor.rest.splitAt? n = none := by
  have hle : p.position ≤ p.data.length := hp
  rw [Bytes.splitAt?_eq_none, cursor, List.length_drop]
  omega

end Place

namespace CheckedRead

/-! ## Chains -/

section
variable {read : CheckedRead α} {f : α → CheckedRead β} {p p' : Place}

/-- A chain goes on after a read that succeeds, from where it ends. -/
theorem run_bind_of_ok {x : α} (h : read.run.run p = .ok (.ok x, p')) :
    (read >>= f).run.run p = (f x).run.run p' := by
  simp [h, ExceptT.run_bind, StateT.run_bind]
  rfl

/-- A chain stops at a read that is refused. -/
theorem run_bind_of_error {e : Error} (h : read.run.run p = .ok (.error e, p')) :
    (read >>= f).run.run p = .ok (.error e, p') := by
  simp [h, ExceptT.run_bind, StateT.run_bind]
  rfl

end

/-- The place can be looked at without moving it. -/
theorem run_get (p : Place) : (get : CheckedRead Place).run.run p = .ok (.ok p, p) :=
  rfl

/-- A step whose value is not kept is a step before nothing. -/
theorem discard_eq_bind {m : Type → Type} [Monad m] [LawfulMonad m] (x : m α) :
    Functor.discard x = x >>= fun _ => Pure.pure () := by
  rw [Functor.discard, LawfulFunctor.map_const]
  exact map_eq_pure_bind _ _

/-- What a step answers, with the place that it comes to. -/
def answer : Result α → Cursor → EStateM.Result Error Cursor α
  | .ok x, c => .ok x c
  | .error e, c => .error e c

/-- The checked step is never stopped inside a structure. It stays inside, and where all offsets
fit a word it does what the other step does. -/
def Simulates (checked : CheckedRead α) (read : Read α) : Prop :=
  ∀ p : Place, p.Inside → ∃ x p', checked.run.run p = .ok (x, p') ∧ p'.data = p.data ∧ p'.Inside ∧
    (p.data.length < 2 ^ 64 → read p.cursor = answer x p'.cursor)

namespace Simulates

/-- A value that is not read is the same in both. -/
theorem pure (x : α) : Simulates (Pure.pure x) (Pure.pure x) :=
  fun p hp => ⟨.ok x, p, rfl, rfl, hp, fun _ => rfl⟩

/-- A refusal is the same in both. -/
theorem throw (e : Error) : Simulates (α := α) (throw e) (MonadExcept.throw e) :=
  fun p hp => ⟨.error e, p, rfl, rfl, hp, fun _ => rfl⟩

/-- Of what the first step reads, the others may use what is known of it. -/
theorem bindWhere {checked : CheckedRead α} {read : Read α} {f : α → CheckedRead β}
    {g : α → Read β} {P : α → Prop} (h : Simulates checked read)
    (hP : ∀ p x p', checked.run.run p = .ok (.ok x, p') → P x)
    (hf : ∀ x, P x → Simulates (f x) (g x)) : Simulates (checked >>= f) (read >>= g) := by
  intro p hp
  obtain ⟨x, p₁, hrun, hdata, hinside, hread⟩ := h p hp
  cases x with
  | ok x =>
    obtain ⟨y, p₂, hrun', hdata', hinside', hread'⟩ := hf x (hP _ _ _ hrun) p₁ hinside
    refine ⟨y, p₂, (run_bind_of_ok hrun).trans hrun', hdata'.trans hdata, hinside',
      fun hsize => ?_⟩
    rw [Read.bind_of_eq_ok (hread hsize), hread' (by rwa [hdata])]
  | error e =>
    refine ⟨.error e, p₁, run_bind_of_error hrun, hdata, hinside, fun hsize => ?_⟩
    exact Read.bind_of_eq_error (hread hsize)

/-- Chains go together if their reads do. -/
theorem bind {checked : CheckedRead α} {read : Read α} {f : α → CheckedRead β} {g : α → Read β}
    (h : Simulates checked read) (hf : ∀ x, Simulates (f x) (g x)) :
    Simulates (checked >>= f) (read >>= g) :=
  h.bindWhere (fun _ _ _ _ => trivial) fun x _ => hf x

/-- What a step reads need not be kept. -/
theorem discard {checked : CheckedRead α} {read : Read α} (h : Simulates checked read) :
    Simulates (Functor.discard checked) (Functor.discard read) := by
  rw [discard_eq_bind checked, discard_eq_bind read]
  exact h.bind fun _ => .pure ()

end Simulates

/-! ## Primitive steps -/

variable {p : Place} {n : Nat} (field : String)

/-- Bytes that end beyond the input are refused, and the place stays. -/
theorem run_bytes_of_none (hstop : p.stop? n = none) :
    (bytes n field).run.run p =
      .ok (.error (.malformedInput (.truncated field p.position)), p) := by
  rw [bytes, run_bind_of_ok (run_get p), hstop]
  rfl

/-- Bytes are those up to their end, which is the next place. -/
theorem run_bytes_of_some {stop : Nat} (hstop : p.stop? n = some stop) :
    (bytes n field).run.run p =
      .ok (.ok ((p.data.take stop).drop p.position), ⟨p.data, stop⟩) := by
  obtain ⟨rfl, -, hle⟩ := Place.stop?_eq_some.1 hstop
  have hslice : Checked.slice p.data p.position (p.position + n) =
      .ok ((p.data.take (p.position + n)).drop p.position) := if_pos ⟨Nat.le_add_right _ _, hle⟩
  rw [bytes, run_bind_of_ok (run_get p), hstop]
  dsimp only
  rw [Checked.liftM_eq_pure hslice]
  rfl

/-- The bytes that are read are as many as told. -/
theorem length_of_bytes {p' : Place} {b : Bytes}
    (h : (bytes n field).run.run p = .ok (.ok b, p')) : b.length = n := by
  cases hstop : p.stop? n with
  | none =>
    rw [run_bytes_of_none field hstop] at h
    cases h
  | some stop =>
    rw [run_bytes_of_some field hstop] at h
    obtain ⟨rfl, -, hle⟩ := Place.stop?_eq_some.1 hstop
    cases h
    rw [List.length_drop, List.length_take_of_le hle, Nat.add_sub_cancel_left]

/-- Bytes are read alike: the sum of place and length that overflows lies beyond every input. -/
theorem simulates_bytes (n : Nat) (field : String) :
    Simulates (bytes n field) (Read.bytes n field) := by
  intro p hp
  cases hstop : p.stop? n with
  | none =>
    refine ⟨_, p, run_bytes_of_none field hstop, rfl, hp, fun hsize => ?_⟩
    have hsplit := Place.splitAt?_cursor_eq_none (Place.lt_of_stop?_eq_none hstop hsize) hp
    simp only [Read.bytes, hsplit]
    rfl
  | some stop =>
    obtain ⟨rfl, -, hle⟩ := Place.stop?_eq_some.1 hstop
    refine ⟨_, _, run_bytes_of_some field hstop, rfl, hle, fun _ => ?_⟩
    simp only [Read.bytes, Place.splitAt?_cursor hle]
    rfl

/-- A step that goes on with as many bytes as it read, to a word that they write. -/
theorem simulates_word {W : Type} {n : Nat} {f : Bytes → CheckedRead W} {g : Bytes → W}
    (field : String) (h : ∀ b : Bytes, b.length = n → f b = pure (g b)) :
    Simulates (bytes n field >>= f) (Read.bytes n field >>= fun b => pure (g b)) := by
  refine (simulates_bytes n field).bindWhere (fun _ _ _ => length_of_bytes field) fun b hb => ?_
  rw [h b hb]
  exact .pure _

/-- An integer of one byte is read alike. -/
theorem simulates_word8 (field : String) : Simulates (word8 field) (Read.word8 field) := by
  refine simulates_word field fun b hb => ?_
  obtain ⟨d, rfl⟩ := List.length_eq_one_iff.1 hb
  have hindex : Checked.index [d] 0 = .ok d := rfl
  have hd : UInt8.ofNat (Bytes.toNat [d]) = d := by simp [Bytes.toNat]
  rw [Checked.liftM_eq_pure hindex, hd]

/-- An integer of two bytes is read alike. -/
theorem simulates_word16 (field : String) : Simulates (word16 field) (Read.word16 field) := by
  refine simulates_word field fun b hb => ?_
  have hindices : Checked.indices b 0 2 = .ok b := hb ▸ Checked.indices_all b
  rw [Checked.liftM_eq_pure hindices]
  rfl

/-- An integer of four bytes is read alike. -/
theorem simulates_word32 (field : String) : Simulates (word32 field) (Read.word32 field) := by
  refine simulates_word field fun b hb => ?_
  have hindices : Checked.indices b 0 4 = .ok b := hb ▸ Checked.indices_all b
  rw [Checked.liftM_eq_pure hindices]
  rfl

/-- An integer of eight bytes is read alike. -/
theorem simulates_word64 (field : String) : Simulates (word64 field) (Read.word64 field) := by
  refine simulates_word field fun b hb => ?_
  rw [Checked.liftM_eq_pure (Checked.copy_of_length hb)]
  rfl

/-- Bytes with their length before them are read alike. -/
theorem simulates_sized (field : String) : Simulates (sized field) (Read.sized field) :=
  (simulates_word16 field).bind fun length => simulates_bytes length.toNat field

/-- The remainder is the same: the place is inside the input, so that it can be cut there. -/
theorem simulates_remainder : Simulates remainder Read.remainder := by
  intro p hp
  have hslice : Checked.sliceFrom p.data p.position = .ok (p.data.drop p.position) := by
    rw [Checked.sliceFrom, Checked.slice, if_pos ⟨hp, Nat.le_refl _⟩, List.take_length]
  have hrun : remainder.run.run p =
      .ok (.ok (p.data.drop p.position), ⟨p.data, p.data.length⟩) := by
    rw [remainder, run_bind_of_ok (run_get p), Checked.liftM_eq_pure hslice]
    rfl
  refine ⟨_, _, hrun, rfl, Nat.le_refl _, fun _ => ?_⟩
  have hle : p.position ≤ p.data.length := hp
  simp [Read.remainder, Place.cursor, answer, Nat.add_sub_cancel' hle]

/-- What is left is counted alike: the place is inside the input, so that the difference is no
underflow. -/
theorem simulates_finish (structureName : String) :
    Simulates (finish structureName) (Read.finish structureName) := by
  intro p hp
  have hle : p.position ≤ p.data.length := hp
  have hrest : p.cursor.rest.length = p.data.length - p.position := List.length_drop
  rw [finish, run_bind_of_ok (run_get p), Checked.liftM_eq_pure (Checked.sub_of_le hp), pure_bind]
  by_cases hleft : p.data.length - p.position = 0
  · refine ⟨.ok (), p, by rw [if_pos hleft]; rfl, rfl, hp, fun _ => ?_⟩
    have hend : p.cursor.rest = [] := List.length_eq_zero_iff.1 (hrest.trans hleft)
    rw [Read.finish, if_pos hend]
    rfl
  · refine ⟨.error _, p, by rw [if_neg hleft]; rfl, rfl, hp, fun _ => ?_⟩
    have hend : p.cursor.rest ≠ [] := fun h => hleft (by rw [← hrest, h, List.length_nil])
    rw [Read.finish, if_neg hend, hrest]
    rfl

/-! ## Structures -/

/-- A structure is read in range from its beginning, and as at a cursor if it fits the memory. -/
theorem Simulates.parse {checked : CheckedRead α} {read : Read α} (h : Simulates checked read)
    (b : Bytes) : ∃ x, checked.parse b = Checked.ofResult x ∧
      (b.length < 2 ^ 64 → x = read.parse b) := by
  obtain ⟨x, p, hrun, -, -, hread⟩ := h _ (Place.inside_start b)
  refine ⟨x, ?_, fun hsize => ?_⟩
  · rw [CheckedRead.parse, hrun]
    rfl
  · have hstart : read (.start b) = answer x p.cursor := hread hsize
    rw [Read.parse, hstart]
    cases x <;> rfl

end CheckedRead

end Attestation.Tpm
