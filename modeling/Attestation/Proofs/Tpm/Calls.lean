import Attestation.Proofs.Checked.Read

/-!
# Calls in any order

A structure may be read by calls in any order, which may fail. Whatever a call does, it passes the
bytes that it consumes and no others (`Call.passes`), so that the bytes consumed by all calls are
those before the place that they come to (`Call.passes_all`). A read of so many bytes fails where
fewer are left, and then it stays where it is (`Call.perform_eq_of_width`).
-/

namespace Attestation.Tpm

/-- A place is told by its structure and its cursor. -/
theorem Place.eq_of_cursor {data : Bytes} {p : Place} {c : Cursor} (hdata : p.data = data)
    (hcursor : p.cursor = c) : p = ⟨data, c.offset⟩ := by
  subst hdata hcursor
  rfl

namespace Call

/-- The step at a cursor that is called. What it reads is given by the bytes that write it. -/
def read (name : String) : Call → Read Bytes
  | bytes n => Read.bytes n name
  | word8 => return Bytes.ofNat 1 (← Read.word8 name).toNat
  | word16 => return Bytes.ofNat 2 (← Read.word16 name).toNat
  | word32 => return Bytes.ofNat 4 (← Read.word32 name).toNat
  | word64 => return Bytes.ofNat 8 (← Read.word64 name).toNat
  | sized => return sizedBytes (← Read.sized name)
  | remainder => Read.remainder
  | finish => do
    Read.finish name
    return []

/-- How many bytes are asked for by a call that reads so many at once. -/
def width? : Call → Option Nat
  | bytes n => some n
  | word8 => some 1
  | word16 => some 2
  | word32 => some 4
  | word64 => some 8
  | sized | remainder | finish => none

/-- What a call at a cursor answers, and the place that it leaves, whether it succeeds or fails. -/
def perform (name : String) (call : Call) (c : Cursor) : Result Bytes × Cursor :=
  match call.read name c with
  | .ok b c' => (.ok b, c')
  | .error e c' => (.error e, c')

/-- The bytes that a call has consumed when it fails: the length of a byte string that is cut off,
where this has been read. -/
def consumedByFailure (name : String) (c : Cursor) : Call → Bytes
  | sized =>
    match Read.word16 name c with
    | .ok length _ => Bytes.ofNat 2 length.toNat
    | .error _ _ => []
  | bytes _ | word8 | word16 | word32 | word64 | remainder | finish => []

/-- The bytes that a call consumes. If it succeeds, they write what it reads. -/
def consumed (name : String) (call : Call) (c : Cursor) : Bytes :=
  match call.read name c with
  | .ok b _ => b
  | .error _ _ => call.consumedByFailure name c

/-- The place after calls one after the other, whether they succeed or fail. -/
def performAll (calls : List (Call × String)) (c : Cursor) : Cursor :=
  calls.foldl (fun c call => (call.1.perform call.2 c).2) c

/-- The bytes that calls one after the other consume. -/
def consumedAll : List (Call × String) → Cursor → Bytes
  | [], _ => []
  | (call, name) :: calls, c =>
    call.consumed name c ++ consumedAll calls (call.perform name c).2

variable {name : String} {call : Call} {c c' : Cursor} {b : Bytes} {e : Error}

/-- The bytes of a word that is read are those that write it. -/
theorem read_word_eq {W : Type} {n : Nat} {ofNat : Nat → W} {toNat : W → Nat}
    (htoNat : ∀ m < 256 ^ n, toNat (ofNat m) = m) :
    (do
      let w ← (do return ofNat (← Read.bytes n name).toNat : Read W)
      return Bytes.ofNat n (toNat w) : Read Bytes) c = Read.bytes n name c := by
  cases h : Read.bytes n name c with
  | ok b c' =>
    obtain ⟨rfl, -⟩ := Read.bytes_eq_ok.1 h
    rw [bind_assoc, Read.bind_of_eq_ok h, pure_bind, htoNat _ b.toNat_lt, Bytes.ofNat_toNat]
    rfl
  | error e c' => rw [bind_assoc, Read.bind_of_eq_error h]

/-- A call that asks for so many bytes reads the next ones. -/
theorem read_eq_bytes {n : Nat} (hwidth : call.width? = some n) :
    call.read name c = Read.bytes n name c := by
  cases call with
  | bytes m =>
    cases hwidth
    rfl
  | word8 =>
    cases hwidth
    exact read_word_eq fun _ => UInt8.toNat_ofNat_of_lt'
  | word16 =>
    cases hwidth
    exact read_word_eq fun _ => UInt16.toNat_ofNat_of_lt'
  | word32 =>
    cases hwidth
    exact read_word_eq fun _ => UInt32.toNat_ofNat_of_lt'
  | word64 =>
    cases hwidth
    exact read_word_eq fun _ => UInt64.toNat_ofNat_of_lt'
  | sized | remainder | finish => cases hwidth

/-- What a call reads, it passes. -/
theorem passes_of_read_eq_ok (h : call.read name c = .ok b c') : c.Passes b c' := by
  cases call with
  | bytes | word8 | word16 | word32 | word64 =>
    rw [read_eq_bytes rfl] at h
    exact (Read.bytes_eq_ok.1 h).2
  | sized =>
    obtain ⟨s, c₁, hs, hb⟩ := Read.bind_eq_ok.1 h
    obtain ⟨rfl, rfl⟩ := Read.pure_eq_ok.1 hb
    exact (Read.sized_eq_ok.1 hs).2
  | remainder => exact (Read.remainder_eq_ok.1 h).1
  | finish =>
    obtain ⟨_, c₁, hend, hb⟩ := Read.bind_eq_ok.1 h
    obtain ⟨rfl, rfl⟩ := Read.pure_eq_ok.1 hb
    rw [(Read.finish_eq_ok.1 hend).2]
    exact .refl c

/-- A call that reads gives what it reads and moves the cursor. -/
theorem perform_of_eq_ok (h : call.read name c = .ok b c') : call.perform name c = (.ok b, c') := by
  rw [perform, h]

/-- A call that fails gives the error, and the cursor stays where the failure left it. -/
theorem perform_of_eq_error (h : call.read name c = .error e c') :
    call.perform name c = (.error e, c') := by
  rw [perform, h]

/-- A call that reads consumes what it gives. -/
theorem consumed_of_eq_ok (h : call.read name c = .ok b c') : call.consumed name c = b := by
  rw [consumed, h]

/-- A call that fails consumes what its failure does. -/
theorem consumed_of_eq_error (h : call.read name c = .error e c') :
    call.consumed name c = call.consumedByFailure name c := by
  rw [consumed, h]

/-- A call that fails stays where it is, but for a byte string whose length it has read. -/
theorem passes_of_read_eq_error (h : call.read name c = .error e c') :
    c.Passes (call.consumedByFailure name c) c' := by
  cases call with
  | bytes | word8 | word16 | word32 | word64 =>
    rw [read_eq_bytes rfl] at h
    obtain ⟨-, -, rfl⟩ := Read.bytes_eq_error.1 h
    exact .refl _
  | sized =>
    have hsized : Read.sized name c = .error e c' := Read.bind_pure_eq_error.1 h
    rcases Read.bind_eq_error.1 hsized with hlength | ⟨length, c₁, hlength, hbytes⟩
    · obtain ⟨-, -, rfl⟩ := Read.bytes_eq_error.1 (Read.bind_pure_eq_error.1 hlength)
      rw [consumedByFailure, hlength]
      exact .refl _
    · obtain ⟨-, -, rfl⟩ := Read.bytes_eq_error.1 hbytes
      rw [consumedByFailure, hlength]
      exact Read.word16_eq_ok.1 hlength
  | remainder => cases h
  | finish =>
    obtain ⟨-, -, rfl⟩ := Read.finish_eq_error.1 (Read.bind_pure_eq_error.1 h)
    exact .refl _

/-- A call passes the bytes that it consumes. -/
theorem passes (name : String) (call : Call) (c : Cursor) :
    c.Passes (call.consumed name c) (call.perform name c).2 := by
  cases h : call.read name c with
  | ok b c' =>
    rw [consumed_of_eq_ok h, perform_of_eq_ok h]
    exact passes_of_read_eq_ok h
  | error e c' =>
    rw [consumed_of_eq_error h, perform_of_eq_error h]
    exact passes_of_read_eq_error h

/-- Calls one after the other pass the bytes that they consume. -/
theorem passes_all (calls : List (Call × String)) (c : Cursor) :
    c.Passes (consumedAll calls c) (performAll calls c) := by
  induction calls generalizing c with
  | nil => exact .refl c
  | cons call calls ih => exact (call.1.passes call.2 c).trans (ih _)

/-- A call that asks for so many bytes reads them if they are there, and otherwise names the place
and stays there. -/
theorem perform_eq_of_width {n : Nat} (hwidth : call.width? = some n) :
    call.perform name c =
      if n ≤ c.rest.length then (.ok (c.rest.take n), ⟨c.offset + n, c.rest.drop n⟩)
      else (.error (.malformedInput (.truncated name c.offset)), c) := by
  split
  · rename_i hleft
    refine perform_of_eq_ok ?_
    rw [read_eq_bytes hwidth, Read.bytes, Bytes.splitAt?, if_pos hleft]
  · rename_i hleft
    refine perform_of_eq_error ?_
    rw [read_eq_bytes hwidth]
    exact Read.bytes_eq_error.2 ⟨Nat.lt_of_not_le hleft, rfl, rfl⟩

/-- A call for the end succeeds if nothing is left, and never moves the cursor. -/
theorem perform_finish :
    finish.perform name c =
      if c.rest = [] then (.ok [], c)
      else (.error (.malformedInput (.trailing c.rest.length name)), c) := by
  split
  · rename_i hend
    have hfinish : Read.finish name c = .ok () c := Read.finish_eq_ok.2 ⟨hend, rfl⟩
    refine perform_of_eq_ok ?_
    rw [read, Read.bind_of_eq_ok hfinish]
    rfl
  · rename_i hrest
    exact perform_of_eq_error (Read.bind_of_eq_error (Read.finish_eq_error.2 ⟨hrest, rfl, rfl⟩))

/-! ## Calls by offsets -/

open CheckedRead

/-- What a step reads may be changed where it is not kept. -/
theorem discard_bind_pure {α β : Type} (read : Read α) (f : α → β) :
    discard (read >>= fun x => pure (f x)) = discard read := by
  rw [discard_eq_bind, discard_eq_bind, bind_assoc]
  simp only [pure_bind]

/-- The step that is called by offsets goes together with the one at a cursor. -/
theorem simulates_read (name : String) (call : Call) :
    Simulates (call.step name) (discard (call.read name)) := by
  have hvalue {α : Type} {checked : CheckedRead α} {read : Read α} (write : α → Bytes)
      (h : Simulates checked read) :
      Simulates (discard checked) (discard (do return write (← read))) := by
    rw [discard_bind_pure]
    exact h.discard
  cases call with
  | bytes n => exact (simulates_bytes n name).discard
  | word8 => exact hvalue _ (simulates_word8 name)
  | word16 => exact hvalue _ (simulates_word16 name)
  | word32 => exact hvalue _ (simulates_word32 name)
  | word64 => exact hvalue _ (simulates_word64 name)
  | sized => exact hvalue _ (simulates_sized name)
  | remainder => exact simulates_remainder.discard
  | finish =>
    rw [read, discard_bind_pure, discard_eq_bind, bind_pure_unit]
    exact simulates_finish name

/-- A call by offsets leads from a place inside its structure to such a place. If the structure fits
the memory, this is where the call at a cursor leads, with the same answer. -/
theorem exists_run_step {p : Place} (hp : p.Inside) (name : String) (call : Call) :
    ∃ x p', (call.step name).run.run p = .ok (x, p') ∧ p'.data = p.data ∧ p'.Inside ∧
      (p.data.length < 2 ^ 64 → x = (call.perform name p.cursor).1.map (fun _ => ()) ∧
        p'.cursor = (call.perform name p.cursor).2) := by
  obtain ⟨x, p', hrun, hdata, hinside, hread⟩ := simulates_read name call p hp
  refine ⟨x, p', hrun, hdata, hinside, fun hsize => ?_⟩
  replace hread := hread hsize
  rw [discard_eq_bind] at hread
  cases h : call.read name p.cursor with
  | ok b c' =>
    rw [Read.bind_of_eq_ok h] at hread
    rw [perform_of_eq_ok h]
    cases x with
    | ok u => exact ⟨rfl, (EStateM.Result.ok.inj hread).2.symm⟩
    | error e => cases hread
  | error e c' =>
    rw [Read.bind_of_eq_error h] at hread
    rw [perform_of_eq_error h]
    cases x with
    | ok u => cases hread
    | error e' =>
      obtain ⟨rfl, hcursor⟩ := EStateM.Result.error.inj hread
      exact ⟨rfl, hcursor.symm⟩

/-- So do calls one after the other. -/
theorem exists_runAll {p : Place} (hp : p.Inside) (calls : List (Call × String)) :
    ∃ p', runAll calls p = .ok p' ∧ p'.data = p.data ∧ p'.Inside ∧
      (p.data.length < 2 ^ 64 → p'.cursor = performAll calls p.cursor) := by
  induction calls generalizing p with
  | nil => exact ⟨p, rfl, rfl, hp, fun _ => rfl⟩
  | cons call calls ih =>
    obtain ⟨_, p₁, hrun, hdata, hinside, hperform⟩ := exists_run_step hp call.2 call.1
    obtain ⟨p₂, hrunAll, hdata', hinside', hperformAll⟩ := ih hinside
    refine ⟨p₂, ?_, hdata'.trans hdata, hinside', fun hsize => ?_⟩
    · rw [runAll, List.foldlM_cons, run, hrun]
      exact hrunAll
    · rw [hperformAll (by rwa [hdata]), (hperform hsize).2]
      rfl

end Call

/-- Whatever calls have been made to read a structure, in any order and whether they succeeded or
failed, the place that they come to lies inside the structure, and it is never before one that they
came from. They have consumed the bytes before it, in this order and no others; the length of a
byte string is among them also where the string is cut off. From there, a call that asks for so many
bytes reads the next ones if they are there, and otherwise fails, names the place and stays there.
The end of the structure is accepted there exactly if nothing is left, and otherwise the number of
bytes that are is reported. Calls by offsets come to the same places and fail with the same errors,
if the structure fits the memory. -/
theorem calls_consume_in_order (data : Bytes) (calls : List (Call × String)) :
    let c := Call.performAll calls (.start data)
    c.offset ≤ data.length ∧ c.rest = data.drop c.offset ∧
    Call.consumedAll calls (.start data) = data.take c.offset ∧
    (∀ more, c.offset ≤ (Call.performAll more c).offset) ∧
    (∀ name call n, Call.width? call = some n → call.perform name c =
      if n ≤ data.length - c.offset then
        (.ok ((data.drop c.offset).take n), ⟨c.offset + n, data.drop (c.offset + n)⟩)
      else (.error (.malformedInput (.truncated name c.offset)), c)) ∧
    (∀ name, Call.finish.perform name c =
      if c.offset = data.length then (.ok [], c)
      else (.error (.malformedInput (.trailing (data.length - c.offset) name)), c)) ∧
    (data.length < 2 ^ 64 → Call.runAll calls (.start data) = .ok ⟨data, c.offset⟩ ∧
      ∀ name call, (Call.step name call).run.run ⟨data, c.offset⟩ =
        .ok ((call.perform name c).1.map fun _ => (), ⟨data, (call.perform name c).2.offset⟩)) := by
  intro c
  -- All but the last part is the run lemma, read off at the beginning of the input.
  obtain ⟨hle, hrest, hconsumed⟩ : c.offset ≤ data.length ∧ c.rest = data.drop c.offset ∧
      Call.consumedAll calls (.start data) = data.take c.offset :=
    (Call.passes_all calls (.start data)).inside
  have hleft : c.rest.length = data.length - c.offset := by rw [hrest, List.length_drop]
  refine ⟨hle, hrest, hconsumed, fun more => ?_, fun name call n hwidth => ?_, fun name => ?_,
    fun hsize => ?_⟩
  · rw [(Call.passes_all more c).offset]
    exact Nat.le_add_right _ _
  · rw [Call.perform_eq_of_width hwidth, hleft, hrest, List.drop_drop]
  · have hend : c.rest = [] ↔ c.offset = data.length := by
      rw [← List.length_eq_zero_iff, hleft]
      omega
    rw [Call.perform_finish, hleft]
    simp only [hend]
  -- A cursor of the input is a place in it, from where the checked reads go on.
  · have hcursor : (Place.mk data c.offset).cursor = c := by rw [Place.cursor, ← hrest]
    refine ⟨?_, fun name call => ?_⟩
    · obtain ⟨p, hrun, hp, -, hpc⟩ := Call.exists_runAll (Place.inside_start data) calls
      exact hrun.trans (congrArg Except.ok (Place.eq_of_cursor hp (hpc hsize)))
    · obtain ⟨x, p, hrun, hp, -, hperform⟩ :=
        Call.exists_run_step (p := ⟨data, c.offset⟩) hle name call
      rw [hcursor] at hperform
      obtain ⟨rfl, hpc⟩ := hperform hsize
      rw [hrun, Place.eq_of_cursor hp hpc]

/-- A byte string that is cut off has its length consumed, and a word that is not there fails at the
byte that is left. -/
theorem calls_consume_in_order_sample :
    let data : Bytes := [0x00, 0x05, 0xaa]
    let calls := [(Call.sized, "extraData"), (Call.word16, "type")]
    let c := Call.performAll calls (.start data)
    c = ⟨2, [0xaa]⟩ ∧ Call.consumedAll calls (.start data) = [0x00, 0x05] ∧
      Call.word16.perform "type" c =
        (.error (.malformedInput (.truncated "type" 2)), ⟨2, [0xaa]⟩) ∧
      Call.runAll calls (.start data) = .ok ⟨data, 2⟩ := by
  intro data calls c
  have hc : Call.performAll calls (.start data) = ⟨2, [0xaa]⟩ := by decide
  obtain ⟨-, -, hconsumed, -, hwidth, -, hoffsets⟩ := calls_consume_in_order data calls
  rw [hc] at hconsumed hwidth hoffsets
  exact ⟨hc, hconsumed, (congrArg _ hc).trans (hwidth "type" .word16 2 rfl),
    (hoffsets (by decide)).1⟩

end Attestation.Tpm
