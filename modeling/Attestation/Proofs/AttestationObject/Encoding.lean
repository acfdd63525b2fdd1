import Attestation.Proofs.Cbor.Writing
import Attestation.Proofs.Registration
import Attestation.Proofs.Statement.Encoding

/-!
# Decoding an object that was encoded

An attestation object is written as a map of the name of its format, its statement and the bytes of
its authenticator data. Decoding these bytes, whatever follows them, gives back the statement and
the very bytes of the authenticator data, which are what is signed; and where some of them are cut
off at the end, they are refused as malformed (`AttestationObject.decode_encoding`).
-/

namespace Attestation

open Cbor (Value Entries)
open Cbor.Value (Plain)

/-! ## Depth -/

/-- An integer may stand at every depth. -/
theorem Cbor.Value.plain_ofInt (depth : Nat) (n : Int) : Plain depth (.ofInt n) := by
  cases n with
  | ofNat n => exact .unsigned depth _
  | negSucc n => exact .negative depth _

namespace Statement

/-- The entry is read back at the given depth. -/
structure PlainEntry (depth : Nat) (e : Value × Value) : Prop where
  key : Plain depth e.1
  value : Plain depth e.2

namespace PlainEntry

variable (depth : Nat) (name : String)

/-- A text may be the value of a field. -/
theorem text (s : String) : PlainEntry depth (entry name (.text s)) :=
  ⟨.text depth name, .text depth s⟩

/-- A byte string may be the value of a field. -/
theorem bytes (b : Bytes) : PlainEntry depth (entry name (.bytes b)) :=
  ⟨.text depth name, .bytes depth b⟩

/-- An integer may be the value of a field. -/
theorem integer (n : Int) : PlainEntry depth (entry name (.ofInt n)) :=
  ⟨.text depth name, Cbor.Value.plain_ofInt depth n⟩

/-- A certificate list is an array, and goes one level deeper. -/
theorem certificates (list : List Bytes) :
    PlainEntry (depth + 1) (entry name (certificateItems list)) := by
  refine ⟨.text _ name, .array fun v hv => ?_⟩
  obtain ⟨der, -, rfl⟩ := List.mem_map.1 hv
  exact .bytes depth der

variable {depth name}

/-- The entry of a field that may be missing, if there is one. -/
theorem optional {α : Type} {item : α → Value} (h : ∀ x, PlainEntry depth (entry name (item x)))
    (x : Option α) : ∀ e ∈ optionalEntry name item x, PlainEntry depth e := by
  intro e he
  cases x with
  | none => cases he
  | some x =>
    obtain rfl := List.mem_singleton.1 he
    exact h x

end PlainEntry

/-- The fields of a statement may stand at every depth that has room for a list in them. -/
theorem plainEntry_toEntries (depth : Nat) (s : Statement) :
    ∀ e ∈ s.toEntries, PlainEntry (depth + 1) e := by
  have hcertificates := PlainEntry.optional (PlainEntry.certificates depth "x5c")
  have hbytes (name : String) := PlainEntry.optional (PlainEntry.bytes (depth + 1) name)
  cases s with
  | tpm s =>
    simp only [toEntries, List.forall_mem_cons, List.forall_mem_append]
    exact ⟨.text _ _ _, .integer _ _ _, ⟨hcertificates _, hbytes _ _⟩, .bytes _ _ _, hbytes _ _,
      hbytes _ _⟩
  | packed s =>
    simp only [toEntries, List.forall_mem_cons, List.forall_mem_append]
    exact ⟨.integer _ _ _, .bytes _ _ _, hcertificates _, hbytes _ _⟩
  | androidKey s =>
    simp only [toEntries, List.forall_mem_cons]
    exact ⟨.integer _ _ _, .bytes _ _ _, .certificates _ _ _, List.forall_mem_nil _⟩
  | androidSafetyNet s =>
    simp only [toEntries, List.forall_mem_cons]
    exact ⟨.text _ _ _, .bytes _ _ _, List.forall_mem_nil _⟩
  | fidoU2f s =>
    simp only [toEntries, List.forall_mem_cons]
    exact ⟨.bytes _ _ _, .certificates _ _ _, List.forall_mem_nil _⟩
  | apple s =>
    simp only [toEntries, List.forall_mem_cons]
    exact ⟨.certificates _ _ _, List.forall_mem_nil _⟩
  | none => exact List.forall_mem_nil _

/-- A statement may stand at every depth that has room for its map and a list in it. -/
theorem plain_toCbor (depth : Nat) (s : Statement) : Plain (depth + 2) s.toCbor :=
  .map (fun e he => (plainEntry_toEntries depth s e he).key)
    fun e he => (plainEntry_toEntries depth s e he).value

end Statement

namespace AttestationObject

/-- An object nests three deep: the object, its statement, and a certificate list. -/
theorem plain_toCbor (depth : Nat) (s : Statement) (a : Bytes) :
    Plain (depth + 3) (toCbor s a) := by
  refine .map (fun e he => ?_) fun e he => ?_
  · simp only [List.mem_cons, List.not_mem_nil, or_false] at he
    obtain rfl | rfl | rfl := he
    all_goals exact .text _ _
  · simp only [List.mem_cons, List.not_mem_nil, or_false] at he
    obtain rfl | rfl | rfl := he
    · exact .text _ _
    · exact Statement.plain_toCbor depth s
    · exact .bytes _ a

/-! ## Objects -/

variable {s : Statement} {a : Bytes} {d : AuthenticatorData}

/-- The fields of the map of an object are the name, the bytes and the statement in it. -/
theorem ofEntries_toCbor (s : Statement) (a : Bytes) :
    Fields.ofEntries [(.text "fmt", .text s.format.name), (.text "attStmt", s.toCbor),
      (.text "authData", .bytes a)] = ⟨some s.format.name, some a, some s.toCbor⟩ :=
  rfl

/-- The fields of an object that was written are read into the object. -/
theorem ofFields_toCbor (hs : s.WellFormed) (ha : AuthenticatorData.parse a = .ok d) :
    ofFields ⟨some s.format.name, some a, some s.toCbor⟩ = .ok (⟨d, s⟩, a) :=
  ofFields_eq_ok.2 ⟨_, _, s, d, rfl, Statement.ofCbor_toCbor hs, ha, ofParts_eq_ok.2 ⟨rfl, rfl⟩⟩

/-- The encoding of a statement and of bytes of authenticator data, whatever follows it, is decoded
as an object of this statement and these authenticator data, and beside it stand the same bytes.
Where some of the encoding is cut off, it is malformed. No byte string in a memory of 64 bits is so
long that the bound on the length excludes it. -/
theorem decode_encoding (hs : s.WellFormed) (ha : AuthenticatorData.parse a = .ok d)
    (hsize : (encode s a).length < 2 ^ 64) :
    (∀ t, ∃ o, decode (encode s a ++ t) = .ok (o, a) ∧ o.format = s.format.name ∧
      o.statement = s ∧ o.authData = d) ∧
    ∀ front, front <+: encode s a → front ≠ encode s a →
      ∃ cause, decode front = .error (.malformedInput cause) := by
  have hplain : Plain Value.maxDepth (toCbor s a) := plain_toCbor 253 s a
  refine ⟨fun t => ⟨⟨d, s⟩, ?_, rfl, rfl, rfl⟩, fun front hfront hne => ?_⟩
  · have hread := Cbor.Value.read_encode hplain hsize t
    rw [encode, decode_eq hread, ofEntries_toCbor]
    exact ofFields_toCbor hs ha
  · have hread := Cbor.Value.read_eq_none_of_prefix hplain hsize hfront hne
    rw [decode, hread]
    exact ⟨_, rfl⟩

end AttestationObject

namespace EncodingSample

/-- A statement with a certificate and without an optional identifier. -/
def certified : Statement :=
  .packed ⟨-7, [0x30, 0x00], some [[0x30, 0x00], [0x31]], none⟩

/-- Authenticator data of a user who was present. -/
def raw : Bytes :=
  List.replicate 32 0 ++ [0x01, 0, 0, 0, 5]

end EncodingSample

open EncodingSample (certified raw)

/-- A packed attestation is decoded with other bytes after it, and not without its last byte. -/
theorem AttestationObject.decode_encoding_sample :
    ∃ d, certified.WellFormed ∧ AuthenticatorData.parse raw = .ok d ∧
      (encode certified raw).length < 2 ^ 64 ∧
      (∃ o, decode (encode certified raw ++ [0xff, 0x00]) = .ok (o, raw) ∧
        o.format = "packed" ∧ o.statement = certified ∧ o.authData = d) ∧
      ∃ cause, decode (encode certified raw).dropLast = .error (.malformedInput cause) := by
  obtain ⟨d, hd⟩ : ∃ d, AuthenticatorData.parse raw = .ok d := ⟨_, rfl⟩
  have hs : certified.WellFormed := ⟨by decide, by decide⟩
  have hsize : (encode certified raw).length < 2 ^ 64 := by decide
  obtain ⟨hwhole, hcut⟩ := decode_encoding hs hd hsize
  exact ⟨d, hs, hd, hsize, hwhole _, hcut _ (List.dropLast_prefix _) (by decide)⟩

end Attestation
