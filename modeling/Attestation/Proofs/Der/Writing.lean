import Attestation.Proofs.Der.Encoding
import Attestation.Proofs.Der.Integer
import Attestation.Proofs.Der.SelfDelimiting

/-!
# Writing elements

`Element.encode` writes an element by the distinguished rules, whatever the class and the number of
its tag. Both readers of elements take what was written so, and give back the element
(`Element.takes_encode`, `Element.takesBasic_encode`). The number of a tag has to be below 2 ^ 32,
and the length of a content to fit in 126 bytes (`Element.Fits`). What is written in the universal
types is also read as a value.
-/

namespace Attestation.Der

open Reader (Takes)

/-- The number of the class, in two bits. -/
def TagClass.bits : TagClass → Nat
  | universal => 0
  | application => 1
  | contextSpecific => 2
  | privateUse => 3

/-- A class is written in two bits. -/
theorem TagClass.bits_lt (c : TagClass) : c.bits < 4 := by
  cases c <;> decide

/-- A class is read from the bits that it is written with. -/
theorem TagClass.ofBits_bits (c : TagClass) : ofBits c.bits = c := by
  cases c <;> rfl

/-! ## Numbers of tags -/

/-- The lowest digits of a number in base 128, each marked as followed by another one. -/
def markedDigits : (count : Nat) → Nat → Bytes
  | 0, _ => []
  | count + 1, n => UInt8.ofNat (0x80 + n / 128 ^ count % 128) :: markedDigits count n

/-- A number below 2 ^ 32 in base 128, in its shortest form. -/
def tagNumberBytes (n : Nat) : Bytes :=
  (markedDigits 4 (n / 128)).dropWhile (· == 0x80) ++ [UInt8.ofNat (n % 128)]

/-- The number after one more digit. -/
def addDigit (n : Nat) (digit : UInt8) : Nat :=
  (n * 128 + digit.toNat % 128) % 2 ^ 32

/-- A digit with its mark is the digit and 128. -/
theorem toNat_markedDigit (n : Nat) : (UInt8.ofNat (0x80 + n % 128)).toNat = 0x80 + n % 128 :=
  UInt8.toNat_ofNat_of_lt' (show 0x80 + n % 128 < 256 by omega)

/-- Each digit takes a byte. -/
theorem length_markedDigits (count n : Nat) : (markedDigits count n).length = count := by
  induction count with
  | zero => rfl
  | succ count ih => rw [markedDigits, List.length_cons, ih]

/-- All of the digits bear the mark. -/
theorem le_of_mem_markedDigits {count n : Nat} {d : UInt8} (h : d ∈ markedDigits count n) :
    0x80 ≤ d := by
  induction count with
  | zero => cases h
  | succ count ih =>
    rcases List.mem_cons.1 h with rfl | h
    · rw [UInt8.le_iff_toNat_le, toNat_markedDigit]
      exact Nat.le_add_right _ _
    · exact ih h

/-- Digits in base 128 are read as the number that they write, as far as it fits 32 bits. -/
theorem foldl_addDigit_markedDigits (count start n : Nat) (hstart : start < 2 ^ 32) :
    (markedDigits count n).foldl addDigit start =
      (start * 128 ^ count + n % 128 ^ count) % 2 ^ 32 := by
  induction count generalizing start with
  | zero => simp [markedDigits, Nat.mod_one, Nat.mod_eq_of_lt hstart]
  | succ count ih =>
    have hdigit : addDigit start (UInt8.ofNat (0x80 + n / 128 ^ count % 128)) =
        (start * 128 + n / 128 ^ count % 128) % 2 ^ 32 := by
      rw [addDigit, toNat_markedDigit]
      congr 2
      omega
    have hmod (x c y m : Nat) : (x % m * c + y) % m = (x * c + y) % m := by
      rw [Nat.add_mod, Nat.mul_mod, Nat.mod_mod, ← Nat.mul_mod, ← Nat.add_mod]
    have hsum : (start * 128 + n / 128 ^ count % 128) * 128 ^ count + n % 128 ^ count =
        start * 128 ^ (count + 1) + n % 128 ^ (count + 1) := by
      rw [Nat.mod_pow_succ, Nat.add_mul, Nat.mul_assoc, Nat.pow_succ', Nat.add_assoc,
        Nat.mul_comm (n / 128 ^ count % 128), Nat.add_comm (n % 128 ^ count)]
    rw [markedDigits, List.foldl_cons, hdigit, ih _ (Nat.mod_lt _ (by decide)), hmod, hsum]

/-- Leading zeros do not count. -/
theorem foldl_addDigit_dropWhile (b : Bytes) :
    (b.dropWhile (· == 0x80)).foldl addDigit 0 = b.foldl addDigit 0 := by
  induction b with
  | nil => rfl
  | cons d b ih =>
    by_cases h : d = 0x80
    · subst h
      exact ih
    · rw [List.dropWhile_cons_of_neg (by simpa using h)]

/-- Digits that are marked are read up to the one that is not. -/
theorem readNumber_append {digits : Bytes} (hdigits : ∀ d ∈ digits, 0x80 ≤ d) {last : UInt8}
    (hlast : last < 0x80) {bound start : Nat} (hbound : digits.length < bound) (rest : Bytes) :
    Header.readNumber bound start (digits ++ last :: rest) =
      some (addDigit (digits.foldl addDigit start) last, rest) := by
  induction digits generalizing bound start with
  | nil =>
    obtain ⟨n, rfl⟩ : ∃ n, bound = n + 1 := ⟨bound - 1, by simp at hbound; omega⟩
    simp [Header.readNumber, Reader.byte, hlast, addDigit]
  | cons d digits ih =>
    rw [List.length_cons] at hbound
    obtain ⟨n, rfl⟩ : ∃ n, bound = n + 1 := ⟨bound - 1, by omega⟩
    obtain ⟨hd, hdigits⟩ := List.forall_mem_cons.1 hdigits
    have hmarked : ¬d < 0x80 := UInt8.not_lt.2 hd
    simp only [Header.readNumber, Reader.byte, List.cons_append, Option.bind_eq_bind,
      Option.bind_some, if_neg hmarked]
    exact ih hdigits (by omega)

/-- A tag number is read from the bytes that it is written with. -/
theorem takes_tagNumberBytes {n : Nat} (h : n < 2 ^ 32) :
    (Header.readNumber Header.maxNumberLength 0).Takes (tagNumberBytes n) n := by
  intro rest
  have hlast : (UInt8.ofNat (n % 128)).toNat = n % 128 :=
    UInt8.toNat_ofNat_of_lt' (show n % 128 < 256 by omega)
  have hlt : UInt8.ofNat (n % 128) < 0x80 := by
    rw [UInt8.lt_iff_toNat_lt, hlast]
    exact Nat.mod_lt _ (by decide)
  have hmarked (d : UInt8) (hd : d ∈ (markedDigits 4 (n / 128)).dropWhile (· == 0x80)) :
      0x80 ≤ d :=
    le_of_mem_markedDigits ((List.dropWhile_suffix _).mem hd)
  have hlength : ((markedDigits 4 (n / 128)).dropWhile (· == 0x80)).length <
      Header.maxNumberLength := by
    have := (List.dropWhile_suffix (l := markedDigits 4 (n / 128)) (· == 0x80)).length_le
    rw [length_markedDigits] at this
    exact Nat.lt_succ_of_le this
  have hfront : (n / 128) % 128 ^ 4 % 2 ^ 32 = n / 128 := by omega
  rw [tagNumberBytes, List.append_assoc, List.singleton_append,
    readNumber_append hmarked hlt hlength, foldl_addDigit_dropWhile,
    foldl_addDigit_markedDigits 4 0 _ (by decide), Nat.zero_mul, Nat.zero_add, hfront, addDigit,
    hlast, Nat.mod_mod, Nat.div_add_mod', Nat.mod_eq_of_lt h]

/-! ## Elements -/

/-- Class, kind and number of a tag. A number from 31 on comes after the first byte. -/
def identifierBytes (c : TagClass) (constructed : Bool) (number : Nat) : Bytes :=
  let kind := c.bits * 64 + constructed.toNat * 32
  if number < 31 then [UInt8.ofNat (kind + number)]
  else UInt8.ofNat (kind + 31) :: tagNumberBytes number

/-- The bytes of an element. -/
def Element.encode (e : Element) : Bytes :=
  identifierBytes e.tagClass e.constructed e.number ++ lengthBytes e.content.length ++ e.content

/-- The number of the tag and the length of the content are small enough to be written. -/
structure Element.Fits (e : Element) : Prop where
  number : e.number < 2 ^ 32
  length : e.content.length < lengthLimit

/-- The first byte of a tag tells class and kind and five bits more. -/
theorem readTag_cons {c : TagClass} {constructed : Bool} {low : Nat} (hlow : low < 32)
    {number : Nat} {b rest : Bytes} (h : Header.readTagNumber low b = some (number, rest)) :
    Header.read (UInt8.ofNat (c.bits * 64 + constructed.toNat * 32 + low) :: b) =
      (Header.readExtent rest).map fun (extent, rest) =>
        (⟨c, constructed, number, extent⟩, rest) := by
  have hc := c.bits_lt
  have hconstructed : constructed.toNat < 2 := Bool.toNat_lt constructed
  have hfirst : (UInt8.ofNat (c.bits * 64 + constructed.toNat * 32 + low)).toNat =
      c.bits * 64 + constructed.toNat * 32 + low :=
    UInt8.toNat_ofNat_of_lt' (show _ < 256 by omega)
  have hclass : (c.bits * 64 + constructed.toNat * 32 + low) / 64 = c.bits := by omega
  have hkind : (c.bits * 64 + constructed.toNat * 32 + low) / 32 % 2 = constructed.toNat := by omega
  have hnumber : (c.bits * 64 + constructed.toNat * 32 + low) % 32 = low := by omega
  have hbool : (constructed.toNat == 1) = constructed := by cases constructed <;> rfl
  simp only [Header.read_eq, Reader.byte, hfirst, hclass, hkind, hnumber, hbool, h,
    TagClass.ofBits_bits, Option.bind_eq_bind, Option.bind_some, Option.pure_def]
  cases Header.readExtent rest <;> rfl

/-- A header is read from the bytes that it is written with, before any others. -/
theorem readHeader_encode {e : Element} (he : e.Fits) (rest : Bytes) :
    Header.read (e.encode ++ rest) = some (⟨e.tagClass, e.constructed, e.number,
      .definite e.content.length⟩, e.content ++ rest) := by
  have hextent := (lengthEncoding_lengthBytes he.length).readExtent_append (e.content ++ rest)
  simp only [Element.encode, identifierBytes, List.append_assoc]
  split
  · rename_i hlow
    rw [List.singleton_append, readTag_cons (by omega) (if_neg (by omega)), hextent]
    rfl
  · have hnumber := takes_tagNumberBytes he.number
      (lengthBytes e.content.length ++ (e.content ++ rest))
    rw [List.cons_append, readTag_cons (by decide) ((if_pos rfl).trans hnumber), hextent]
    rfl

namespace Element

/-- An element is read from the bytes that it is written with. -/
theorem takes_encode {e : Element} (he : e.Fits) : Element.read.Takes e.encode e := by
  intro rest
  simp only [Element.read, readHeader_encode he, Bytes.splitAt?_append, Option.bind_eq_bind,
    Option.bind_some, Option.pure_def]

/-- An element is read alike where other forms of lengths are allowed. -/
theorem takesBasic_encode {e : Element} (he : e.Fits) : Element.readBasic.Takes e.encode e := by
  intro rest
  have hcontent (header : Header) (hextent : header.extent = .definite e.content.length) :
      header.readContent (e.content ++ rest) = some (e.content, rest) :=
    header.readContent_append hextent rest
  simp only [Element.readBasic, Header.readBasic, readHeader_encode he, Option.bind_eq_bind,
    Option.bind_some, reduceCtorEq, false_and, if_false, hcontent, Option.pure_def]

/-- An element takes at least one byte. -/
theorem encode_ne_nil (e : Element) : e.encode ≠ [] := by
  simp only [encode, identifierBytes]
  split <;> exact List.cons_ne_nil _ _

/-- A content is shorter than its element. -/
theorem length_content_lt (e : Element) : e.content.length < e.encode.length := by
  have hpos : 0 < (identifierBytes e.tagClass e.constructed e.number).length := by
    simp only [identifierBytes]
    split <;> exact Nat.succ_pos _
  simp only [encode, List.length_append]
  omega

/-- All classes take as many bytes. -/
theorem length_identifierBytes (c : TagClass) (constructed : Bool) (number : Nat) :
    (identifierBytes c constructed number).length =
      (identifierBytes .universal constructed number).length := by
  simp only [identifierBytes]
  split <;> rfl

/-- All classes take the same room. -/
theorem length_encode_class (e : Element) (c : TagClass) :
    ({ e with tagClass := c } : Element).encode.length = e.encode.length := by
  simp only [encode, List.length_append, length_identifierBytes c,
    length_identifierBytes e.tagClass]

/-- An element fits if what is written for it does not exceed the limit. -/
theorem fits_of_length_le {e : Element} (hnumber : e.number < 2 ^ 32)
    (h : e.encode.length ≤ lengthLimit) : e.Fits :=
  ⟨hnumber, Nat.lt_of_lt_of_le e.length_content_lt h⟩

/-- What an element consists of is not longer than the element may be. -/
theorem Fits.length_part_le {α : Type} {e : Element} (h : e.Fits) {write : α → Bytes} {x : α}
    {xs : List α} (hcontent : e.content = xs.flatMap write) (hx : x ∈ xs) :
    (write x).length ≤ lengthLimit := by
  have hlength := h.length
  rw [hcontent] at hlength
  exact Nat.le_trans (length_le_of_mem write hx) (Nat.le_of_lt hlength)

/-! ## Universal types -/

/-- An integer. -/
def integer (n : Int) : Element :=
  ⟨.universal, false, TagNumber.integer, integerBytes n⟩

/-- An enumeration value. -/
def enumerated (n : Nat) : Element :=
  ⟨.universal, false, TagNumber.enumerated, integerBytes n⟩

/-- An octet string. -/
def octets (b : Bytes) : Element :=
  ⟨.universal, false, TagNumber.octetString, b⟩

/-- An object identifier, with its content. -/
def objectId (id : Bytes) : Element :=
  ⟨.universal, false, 6, id⟩

/-- A sequence of what the content holds. -/
def sequence (content : Bytes) : Element :=
  ⟨.universal, true, TagNumber.sequence, content⟩

/-- A set of what the content holds. -/
def set (content : Bytes) : Element :=
  ⟨.universal, true, TagNumber.set, content⟩

/-- A sequence fits if its content is not too long. -/
theorem fits_sequence {content : Bytes} (h : content.length < lengthLimit) :
    (sequence content).Fits :=
  ⟨show TagNumber.sequence < 2 ^ 32 by decide, h⟩

/-- A sequence fits if it is not too long with its header. -/
theorem fits_sequence_of_le {content : Bytes} (h : (sequence content).encode.length ≤ lengthLimit) :
    (sequence content).Fits :=
  fits_sequence (Nat.lt_of_lt_of_le (length_content_lt (sequence content)) h)

/-- The content of an element with the expected number is read. -/
theorem takes_constructed {e : Element} (h : e.Fits) (hconstructed : e.constructed = true) :
    (readConstructed e.number).Takes e.encode e.content := by
  intro rest
  simp [readConstructed, readNumbered, takes_encode h rest, hconstructed]

/-- The content of a sequence is read. -/
theorem takes_sequence {content : Bytes} (h : (sequence content).Fits) :
    readSequence.Takes (sequence content).encode content :=
  takes_constructed h rfl

/-- The content of a set is read. -/
theorem takes_set {content : Bytes} (h : (set content).Fits) :
    readSet.Takes (set content).encode content :=
  takes_constructed h rfl

end Element

end Attestation.Der
