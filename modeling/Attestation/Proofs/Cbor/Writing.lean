import Attestation.Cbor.Writer
import Attestation.Proofs.Cbor.SelfDelimiting
import Attestation.Proofs.Number

/-!
# Reading what was written

`Value.read` gives back the item whose bytes it reads, whatever follows them
(`Value.takes_encode`). Two kinds of items are not written for this: those that nest deeper than the
reader goes, and tags of bignums, which are read as integers. The others are `Value.Plain`. A length
is written in at most eight bytes, so the theorem is about encodings of fewer than `2 ^ 64` bytes.
-/

namespace Attestation

/-! ## Loops -/

/-- A value that is taken after another is taken with it. -/
theorem Reader.Takes.pair {α β : Type} {first : Reader α} {second : Reader β} {a b : Bytes} {x : α}
    {y : β} (ha : first.Takes a x) (hb : second.Takes b y) :
    (Reader.pair first second).Takes (a ++ b) (x, y) := by
  intro rest
  simp [Reader.pair, ha _, hb _]

/-- Values that are taken one by one are taken by their number. -/
theorem Reader.takes_replicate {α : Type} {read : Reader α} {write : α → Bytes} {xs : List α}
    (h : ∀ x ∈ xs, read.Takes (write x) x) :
    (Reader.replicate read xs.length).Takes (xs.flatMap write) xs := by
  induction xs with
  | nil => exact fun _ => rfl
  | cons x xs ih =>
    intro rest
    have hx := h x (List.mem_cons_self ..)
    have hxs := ih fun y hy => h y (List.mem_cons_of_mem _ hy)
    simp [Reader.replicate, hx _, hxs _]

namespace Cbor

/-! ## Heads -/

/-- A small argument stands in the first byte itself. -/
theorem Argument.read_of_lt {n : Nat} (h : n < 24) :
    Argument.read n = fun b => some (direct n, b) := by
  unfold Argument.read
  split
  any_goals omega
  rfl

/-- An argument in the following bytes is read from the bytes that it is written with. -/
theorem Argument.read_following {minor width n : Nat}
    (hread : Argument.read minor = readFollowing width) (hn : n < 256 ^ width) (rest : Bytes) :
    Argument.read minor (Bytes.ofNat width n ++ rest) = some (following width n, rest) := by
  have hnumber : Reader.number width (Bytes.ofNat width n ++ rest) = some (n, rest) :=
    Reader.number_eq_some_iff.2 ⟨rfl, hn⟩
  simp [hread, readFollowing, hnumber]

/-- The first byte of a head holds the major type and five bits more. -/
theorem Head.read_cons {major minor : Nat} (hmajor : major < 8) (hminor : minor < 32)
    {argument : Argument} {b rest : Bytes} (h : Argument.read minor b = some (argument, rest)) :
    Head.read (UInt8.ofNat (major * 32 + minor) :: b) =
      some (⟨Major.ofBits major, argument⟩, rest) := by
  have hlt : major * 32 + minor < 256 := by omega
  have hdiv : (major * 32 + minor) / 32 = major := by omega
  have hmod : (major * 32 + minor) % 32 = minor := by omega
  simp [Head.read, Reader.byte, Nat.mod_eq_of_lt hlt, hdiv, hmod, h]

/-- A head is taken with the number that was written in it. -/
theorem Head.takes_headBytes {major n : Nat} (hmajor : major < 8) (hn : n < 2 ^ 64) :
    ∃ argument, argument.value? = some n ∧
      Head.read.Takes (headBytes major n) ⟨Major.ofBits major, argument⟩ := by
  unfold headBytes
  split
  · rename_i hlt
    refine ⟨.direct n, rfl, fun rest => Head.read_cons hmajor (by omega) ?_⟩
    rw [Argument.read_of_lt hlt]
    rfl
  · split
    · exact ⟨.following 1 n, rfl, fun rest =>
        Head.read_cons hmajor (by decide) (Argument.read_following rfl (by omega) rest)⟩
    · split
      · exact ⟨.following 2 n, rfl, fun rest =>
          Head.read_cons hmajor (by decide) (Argument.read_following rfl (by omega) rest)⟩
      · split
        · exact ⟨.following 4 n, rfl, fun rest =>
            Head.read_cons hmajor (by decide) (Argument.read_following rfl (by omega) rest)⟩
        · exact ⟨.following 8 n, rfl, fun rest =>
            Head.read_cons hmajor (by decide) (Argument.read_following rfl (by omega) rest)⟩

/-- A head takes at least one byte. -/
theorem headBytes_ne_nil (major n : Nat) : headBytes major n ≠ [] := by
  unfold headBytes
  repeat' split
  all_goals exact List.cons_ne_nil _ _

/-- The strings after a head with a length are the one of this length. -/
theorem takes_strings {major : Major} {argument : Argument} {b : Bytes}
    (h : argument.value? = some b.length) : (strings major argument).Takes b [b] := by
  intro rest
  simp [strings, h, Bytes.splitAt?_append]

/-- The items after a head with a count are as many. -/
theorem takes_items {α : Type} {read : Reader α} {argument : Argument} {front : Bytes} {n : Nat}
    {xs : List α} (h : argument.value? = some n)
    (htakes : (Reader.replicate read n).Takes front xs) : (items read argument).Takes front xs := by
  intro rest
  simp [items, h, htakes _]

namespace Value

/-! ## Items -/

/-- The item nests at most so deep, and no tag in it is the one of a bignum, which would be read as
the integer that it stands for. -/
inductive Plain : (depth : Nat) → Value → Prop
  | unsigned (depth : Nat) (n : UInt64) : Plain depth (unsigned n)
  | negative (depth : Nat) (n : UInt64) : Plain depth (negative n)
  | bytes (depth : Nat) (b : Bytes) : Plain depth (bytes b)
  | text (depth : Nat) (s : String) : Plain depth (text s)
  | real (depth : Nat) (bits : UInt64) : Plain depth (real bits)
  | bool (depth : Nat) (b : Bool) : Plain depth (bool b)
  | null (depth : Nat) : Plain depth null
  | tag {depth : Nat} {number : UInt64} {v : Value} :
    number ≠ bignumTag → number ≠ negativeBignumTag → Plain depth v →
    Plain (depth + 1) (tag number v)
  | array {depth : Nat} {vs : List Value} :
    (∀ v ∈ vs, Plain depth v) → Plain (depth + 1) (array vs)
  | map {depth : Nat} {entries : Entries} :
    (∀ e ∈ entries, Plain depth e.1) → (∀ e ∈ entries, Plain depth e.2) →
    Plain (depth + 1) (map entries)

/-- Items are written one after another. -/
theorem encodeItems_eq (vs : List Value) : encodeItems vs = vs.flatMap encode := by
  induction vs with
  | nil => rfl
  | cons v vs ih => rw [encodeItems, ih, List.flatMap_cons]

/-- The bytes of an entry: those of the key and those of the value. -/
def encodeEntry (e : Value × Value) : Bytes :=
  e.1.encode ++ e.2.encode

/-- Entries are written one after another. -/
theorem encodeEntries_eq (entries : Entries) :
    encodeEntries entries = entries.flatMap encodeEntry := by
  induction entries with
  | nil => rfl
  | cons e entries ih => rw [encodeEntries, ih, List.flatMap_cons, encodeEntry]

/-- An item takes at least one byte. -/
theorem encode_ne_nil (v : Value) : v.encode ≠ [] := by
  cases v with
  | real bits => exact List.cons_ne_nil _ _
  | unsigned | negative | bool | null =>
    rw [encode]
    exact headBytes_ne_nil _ _
  | bytes | text | tag | array | map =>
    rw [encode]
    exact List.append_ne_nil_of_left_ne_nil (headBytes_ne_nil _ _) _

/-- An item without parts is read alike at every depth. -/
theorem takes_readAt {depth : Nat} {front : Bytes} {v : Value}
    (h : ∀ inner, (readWith inner).Takes front v) : (readAt depth).Takes front v := by
  cases depth with
  | zero => exact h none
  | succ depth => exact h (some (readAt depth))

/-- An item whose head has a number is taken if its content is taken after such a head. -/
theorem takes_of_head {inner : Option (Reader Value)} {major n : Nat} (hmajor : major < 8)
    (hn : n < 2 ^ 64) {content : Bytes} {v : Value}
    (h : ∀ argument : Argument, argument.value? = some n →
      (readContent inner ⟨Major.ofBits major, argument⟩).Takes content v) :
    (readWith inner).Takes (headBytes major n ++ content) v := by
  obtain ⟨argument, hargument, hhead⟩ := Head.takes_headBytes hmajor hn
  have hcontent := h argument hargument
  intro rest
  simp [readWith, hhead _, hcontent _]

/-- A head that is all of an item. -/
theorem takes_of_sole_head {inner : Option (Reader Value)} {major n : Nat} (hmajor : major < 8)
    (hn : n < 2 ^ 64) {v : Value}
    (h : ∀ argument : Argument, argument.value? = some n →
      (readContent inner ⟨Major.ofBits major, argument⟩).Takes [] v) :
    (readWith inner).Takes (headBytes major n) v := by
  have := takes_of_head hmajor hn h
  rwa [List.append_nil] at this

/-- The head of a truth value, of null or of a floating-point number. -/
theorem takes_of_simple {inner : Option (Reader Value)} (minor : Nat) (hminor : minor < 32)
    {argument : Argument} {content : Bytes} {v : Value}
    (hread : (Argument.read minor).Takes content argument) (hv : simple? argument = some v) :
    (readWith inner).Takes (UInt8.ofNat (7 * 32 + minor) :: content) v := by
  intro rest
  have hhead := Head.read_cons (by decide : 7 < 8) hminor (hread rest)
  rw [List.cons_append, readWith, hhead]
  simp [readContent, Major.ofBits, hv]

/-- Items without parts are taken at every depth. -/
theorem takes_bytes (inner : Option (Reader Value)) {b : Bytes} (hb : b.length < 2 ^ 64) :
    (readWith inner).Takes (bytes b).encode (bytes b) := by
  refine takes_of_head (by decide) hb fun argument hargument rest => ?_
  simp [readContent, Major.ofBits, takes_strings hargument rest]

/-- A text is read from the bytes that it is written with. -/
theorem takes_text (inner : Option (Reader Value)) {s : String}
    (hs : (Bytes.ofText s).length < 2 ^ 64) : (readWith inner).Takes (text s).encode (text s) := by
  refine takes_of_head (by decide) hs fun argument hargument rest => ?_
  have htext : (Bytes.ofText s).toText? = some s := Bytes.toText?_eq_some.2 rfl
  simp [readContent, Major.ofBits, takes_strings hargument rest, htext, String.join]

/-- What was written is read as it was, whatever follows. -/
theorem takes_encode {depth : Nat} {v : Value} (h : Plain depth v)
    (hsize : v.encode.length < 2 ^ 64) : (readAt depth).Takes v.encode v := by
  induction h with
  | unsigned depth n =>
    refine takes_readAt fun inner => takes_of_sole_head (by decide) n.toNat_lt ?_
    intro argument hargument rest
    simp [readContent, Major.ofBits, hargument]
  | negative depth n =>
    refine takes_readAt fun inner => takes_of_sole_head (by decide) n.toNat_lt ?_
    intro argument hargument rest
    simp [readContent, Major.ofBits, hargument]
  | bytes depth b =>
    rw [encode, List.length_append] at hsize
    exact takes_readAt fun inner => takes_bytes inner (by omega)
  | text depth s =>
    rw [encode, List.length_append] at hsize
    exact takes_readAt fun inner => takes_text inner (by omega)
  | real depth bits =>
    have hread : (Argument.read 27).Takes (Bytes.ofNat 8 bits.toNat) (.following 8 bits.toNat) :=
      Argument.read_following rfl bits.toNat_lt
    exact takes_readAt fun inner => takes_of_simple 27 (by decide) hread (by simp [simple?])
  | bool depth b =>
    cases b with
    | false => exact takes_readAt fun inner => takes_of_simple 20 (by decide) (fun _ => rfl) rfl
    | true => exact takes_readAt fun inner => takes_of_simple 21 (by decide) (fun _ => rfl) rfl
  | null depth => exact takes_readAt fun inner => takes_of_simple 22 (by decide) (fun _ => rfl) rfl
  | @tag depth number v hbignum hnegative hv ih =>
    rw [encode] at hsize ⊢
    rw [List.length_append] at hsize
    have htakes := ih (by omega)
    refine takes_of_head (by decide) number.toNat_lt fun argument hargument rest => ?_
    simp [readContent, Major.ofBits, hargument, readTagged, hbignum, hnegative, htakes rest]
  | @array depth vs hvs ih =>
    rw [encode, encodeItems_eq] at hsize ⊢
    rw [List.length_append] at hsize
    -- Each item takes a byte, so that their number fits 64 bits as well.
    have hcount := length_le_length_flatMap encode encode_ne_nil vs
    have htakes : (Reader.replicate (readAt depth) vs.length).Takes (vs.flatMap encode) vs := by
      refine Reader.takes_replicate fun v hv => ih v hv ?_
      have := length_le_of_mem encode hv
      omega
    refine takes_of_head (by decide) (by omega) fun argument hargument rest => ?_
    simp [readContent, Major.ofBits, takes_items hargument htakes rest]
  | @map depth entries hkeys hvalues ihkeys ihvalues =>
    rw [encode, encodeEntries_eq] at hsize ⊢
    rw [List.length_append] at hsize
    have hcount := length_le_length_flatMap encodeEntry
      (fun e => List.append_ne_nil_of_left_ne_nil (encode_ne_nil e.1) _) entries
    have htakes : (Reader.replicate (Reader.pair (readAt depth) (readAt depth))
        entries.length).Takes (entries.flatMap encodeEntry) entries := by
      refine Reader.takes_replicate fun e he => ?_
      have hle := length_le_of_mem encodeEntry he
      rw [encodeEntry, List.length_append] at hle
      exact (ihkeys e he (by omega)).pair (ihvalues e he (by omega))
    refine takes_of_head (by decide) (by omega) fun argument hargument rest => ?_
    simp [readContent, Major.ofBits, takes_items hargument htakes rest]

/-- An encoding with any bytes after it is read as the item that was written. -/
theorem read_encode {v : Value} (h : Plain maxDepth v) (hsize : v.encode.length < 2 ^ 64)
    (rest : Bytes) : read (v.encode ++ rest) = some (v, rest) :=
  takes_encode h hsize rest

/-- No bytes that are cut off at the end of an encoding can be missed. -/
theorem read_eq_none_of_prefix {v : Value} (h : Plain maxDepth v)
    (hsize : v.encode.length < 2 ^ 64) {front : Bytes} (hfront : front <+: v.encode)
    (hne : front ≠ v.encode) : read front = none := by
  obtain ⟨cut, hcut⟩ := hfront
  cases hread : read front with
  | none => rfl
  | some r =>
    obtain ⟨w, rest⟩ := r
    -- The whole encoding would then be read with the bytes `rest ++ cut` left over.
    obtain ⟨taken, rfl, htakes⟩ := selfDelimiting_read _ _ _ hread
    have hwhole := read_encode h hsize []
    rw [List.append_nil, ← hcut, List.append_assoc, htakes] at hwhole
    simp only [Option.some.injEq, Prod.mk.injEq, List.append_eq_nil_iff] at hwhole
    obtain ⟨-, rfl, rfl⟩ := hwhole
    rw [List.append_nil] at hcut
    exact absurd hcut hne

end Value

end Cbor

end Attestation
