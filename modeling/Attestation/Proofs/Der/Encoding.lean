import Attestation.Der.Element
import Attestation.Proofs.Number

/-!
# The distinguished encoding of elements

`Encoding` is how an element is written by the distinguished rules: a byte for the tag, the length
of the content in its shortest form, and the content. Both readers of elements take an element that
is written so, whatever follows it (`Encoding.read_append`, `Encoding.readBasic_append`), although
they also take others. Every content whose length is below the limit of the readers has an encoding
(`exists_encoding`).
-/

namespace Attestation.Der

/-- The bytes are the length of a content in its shortest form: one byte below 128, or up to eight
digits in base 256 after a byte that tells how many they are. -/
inductive LengthEncoding : Nat → Bytes → Prop
  | short {n : Nat} : n < 0x80 → LengthEncoding n [UInt8.ofNat n]
  | long {digits : Bytes} : 0x80 ≤ digits.toNat → digits.head? ≠ some 0 → digits.length ≤ 8 →
    LengthEncoding digits.toNat (UInt8.ofNat (0x80 + digits.length) :: digits)

/-- The bytes are the element with the given identifier, which is class, kind and number of its tag,
and the given content. -/
inductive Encoding (identifier : UInt8) (content : Bytes) : Bytes → Prop
  | intro {length : Bytes} : LengthEncoding content.length length →
    Encoding identifier content (identifier :: (length ++ content))

/-- The identifier of octet strings. -/
def octetsIdentifier : UInt8 := 0x04

/-- The identifier of sequences. -/
def sequenceIdentifier : UInt8 := 0x30

/-- The element with the given identifier, whose number is in its five lowest bits. -/
def Element.ofIdentifier (identifier : UInt8) (content : Bytes) : Element where
  tagClass := .ofBits (identifier.toNat / 64)
  constructed := identifier.toNat / 32 % 2 == 1
  number := identifier.toNat % 32
  content := content

/-! ## Reading -/

/-- A length is read from every encoding of it, whatever follows. -/
theorem LengthEncoding.readExtent_append {n : Nat} {b : Bytes} (h : LengthEncoding n b)
    (rest : Bytes) : Header.readExtent (b ++ rest) = some (.definite n, rest) := by
  cases h with
  | short hn =>
    have hfirst : (UInt8.ofNat n).toNat = n :=
      UInt8.toNat_ofNat_of_lt' (show n < 256 by omega)
    have hlt : UInt8.ofNat n < 0x80 := by
      rw [UInt8.lt_iff_toNat_lt, hfirst]
      exact hn
    simp only [Header.readExtent, Reader.byte, List.singleton_append, Option.bind_eq_bind,
      Option.bind_some, if_pos hlt, hfirst, Option.pure_def]
  | @long digits hn _ hlength =>
    have hpos : 0 < digits.length := by
      refine List.length_pos_iff.2 ?_
      rintro rfl
      exact absurd hn (by decide)
    have hfirst : (UInt8.ofNat (0x80 + digits.length)).toNat = 0x80 + digits.length :=
      UInt8.toNat_ofNat_of_lt' (show 0x80 + digits.length < 256 by omega)
    have hshort : ¬ UInt8.ofNat (0x80 + digits.length) < 0x80 := by
      rw [UInt8.lt_iff_toNat_lt, hfirst]
      simp
    have hother {d : UInt8} (hd : 0x80 + digits.length ≠ d.toNat) :
        UInt8.ofNat (0x80 + digits.length) ≠ d := by
      intro heq
      rw [← heq, hfirst] at hd
      exact hd rfl
    have hindefinite : UInt8.ofNat (0x80 + digits.length) ≠ 0x80 :=
      hother (show 0x80 + digits.length ≠ 0x80 by omega)
    have hreserved : UInt8.ofNat (0x80 + digits.length) ≠ 0xff :=
      hother (show 0x80 + digits.length ≠ 0xff by omega)
    have hnumber : Reader.number digits.length (digits ++ rest) = some (digits.toNat, rest) :=
      Reader.number_eq_some_iff.2 ⟨by rw [Bytes.ofNat_toNat], digits.toNat_lt⟩
    -- At most eight digits cannot write a length that is too large.
    have hlimit : digits.toNat < lengthLimit :=
      Nat.lt_of_lt_of_le digits.toNat_lt (Nat.pow_le_pow_right (by decide) hlength : _ ≤ 256 ^ 8)
    simp only [Header.readExtent, Reader.byte, List.cons_append, Option.bind_eq_bind,
      Option.bind_some, if_neg hshort, if_neg hindefinite, if_neg hreserved, hfirst,
      Nat.add_sub_cancel_left, hnumber, if_pos hlimit, Option.pure_def]

/-- A content whose length is known is taken as a whole. -/
theorem Header.readContent_append (header : Header) {content : Bytes}
    (h : header.extent = .definite content.length) (rest : Bytes) :
    header.readContent (content ++ rest) = some (content, rest) := by
  simp only [Header.readContent, Header.maxDepth, Header.skip, h, Bytes.splitAt?_append,
    Option.map_some, Option.bind_eq_bind, Option.bind_some, Option.pure_def, List.length_append,
    Nat.add_sub_cancel, List.take_left]

namespace Encoding

variable {identifier : UInt8} {content b : Bytes}

/-- The header is read up to the content. -/
theorem readHeader_append (h : Encoding identifier content b) (hid : identifier.toNat % 32 ≠ 31)
    (rest : Bytes) :
    Header.read (b ++ rest) = some (⟨.ofBits (identifier.toNat / 64),
      identifier.toNat / 32 % 2 == 1, identifier.toNat % 32, .definite content.length⟩,
      content ++ rest) := by
  obtain ⟨hlength⟩ := h
  simp only [Header.read, Reader.byte, List.cons_append, List.append_assoc, Option.bind_eq_bind,
    Option.bind_some, if_neg hid, hlength.readExtent_append, Option.pure_def]

/-- An element is read from its encoding, whatever follows. -/
theorem read_append (h : Encoding identifier content b) (hid : identifier.toNat % 32 ≠ 31)
    (rest : Bytes) : Element.read (b ++ rest) = some (.ofIdentifier identifier content, rest) := by
  simp only [Element.read, h.readHeader_append hid, Bytes.splitAt?_append, Option.bind_eq_bind,
    Option.bind_some, Option.pure_def]
  rfl

/-- An element with a small tag number is read from every encoding of it, whatever follows. -/
theorem readBasic_append (h : Encoding identifier content b) (hid : identifier.toNat % 32 ≠ 31)
    (rest : Bytes) :
    Element.readBasic (b ++ rest) = some (.ofIdentifier identifier content, rest) := by
  have hcontent (header : Header) (hextent : header.extent = .definite content.length) :
      header.readContent (content ++ rest) = some (content, rest) :=
    header.readContent_append hextent rest
  simp only [Element.readBasic, Header.readBasic, h.readHeader_append hid, Option.bind_eq_bind,
    Option.bind_some, reduceCtorEq, false_and, if_false, hcontent, Option.pure_def]
  rfl

/-- An element with a small tag number is read from every encoding of it. -/
theorem read_eq_some (h : Encoding identifier content b) (hid : identifier.toNat % 32 ≠ 31) :
    Element.read b = some (.ofIdentifier identifier content, []) := by
  rw [← List.append_nil b]
  exact h.read_append hid []

/-- A content that is one element consists of it alone. -/
theorem all_readBasic (h : Encoding identifier content b) (hid : identifier.toNat % 32 ≠ 31) :
    Reader.all Element.readBasic b.length b = some [.ofIdentifier identifier content] := by
  have hread := h.readBasic_append hid []
  obtain ⟨hlength⟩ := h
  rw [List.append_nil] at hread
  simp only [List.length_cons, Reader.all, hread, Option.bind_eq_bind, Option.bind_some,
    Option.pure_def]

end Encoding

/-! ## Writing -/

/-- The shortest form of a length has at most nine bytes. -/
theorem LengthEncoding.length_le {n : Nat} {b : Bytes} (h : LengthEncoding n b) :
    b.length ≤ 9 := by
  cases h with
  | short => simp
  | long _ _ hlength =>
    rw [List.length_cons]
    omega

/-- The length of a content, written in its shortest form. -/
def lengthBytes (n : Nat) : Bytes :=
  if n < 0x80 then [UInt8.ofNat n]
  else
    let digits := (Bytes.ofNat 8 n).trimZeros
    UInt8.ofNat (0x80 + digits.length) :: digits

/-- The shortest way to write a length is an encoding of it. -/
theorem lengthEncoding_lengthBytes {n : Nat} (h : n < lengthLimit) :
    LengthEncoding n (lengthBytes n) := by
  unfold lengthBytes
  split
  · rename_i hn
    exact .short hn
  · rename_i hn
    have hvalue : (Bytes.ofNat 8 n).trimZeros.toNat = n := by
      rw [Bytes.toNat_trimZeros, Bytes.toNat_ofNat h]
    have hlength : (Bytes.ofNat 8 n).trimZeros.length ≤ 8 := by
      have := (Bytes.ofNat 8 n).length_trimZeros_le_length
      rw [Bytes.length_ofNat] at this
      omega
    have hlong := LengthEncoding.long (hvalue.symm ▸ Nat.le_of_not_lt hn)
      (Bytes.head?_trimZeros_ne _) hlength
    rwa [hvalue] at hlong

/-- Identifier and length take ten bytes at most. -/
theorem Encoding.length_le {identifier : UInt8} {content b : Bytes}
    (h : Encoding identifier content b) : b.length ≤ content.length + 10 := by
  obtain ⟨hlength⟩ := h
  have := hlength.length_le
  simp only [List.length_cons, List.length_append]
  omega

/-- Every content that is not too long can be encoded. -/
theorem exists_encoding (identifier : UInt8) {content : Bytes} (h : content.length < lengthLimit) :
    ∃ b, Encoding identifier content b :=
  ⟨_, .intro (lengthEncoding_lengthBytes h)⟩

end Attestation.Der
