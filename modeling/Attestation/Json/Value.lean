import Attestation.Json.Number

/-!
# Values of JSON

The tree of a value. Strings and numbers stay as they are written, since a string that nobody asks
for may hold what is no text, and a number may be larger than any that is computed with:
`Value.text?` decodes a string, and `Value.integer?` a number. A record is written as an object with
its members, or as the array of all of them in their order; members of other names are ignored,
whatever they hold, and none that is read may be repeated (`Value.record?`). Where every part of a
value is read, whether somebody asks for it or not, its texts and numbers have to be some, and it
must not nest too deep (`Value.isReadable`).
-/

namespace Attestation.Json

/-- A value. -/
inductive Value where
  | null
  | bool (b : Bool)
  | number (x : Number)
  /-- A string, as it is written between its quotes. -/
  | string (raw : Bytes)
  | array (vs : List Value)
  /-- The members with their names, as they are written, in their order. -/
  | object (members : List (Bytes × Value))
  deriving Inhabited

/-! ## Strings -/

/-- What a string is made of. -/
inductive Piece where
  | byte (d : UInt8)
  /-- A code unit of 16 bits, which stands for a character or half of one. -/
  | codeUnit (n : Nat)
  deriving DecidableEq, Repr

/-- The hexadecimal digit that a byte is in ASCII. -/
def hexDigit? (d : UInt8) : Option Nat :=
  if 0x30 ≤ d ∧ d ≤ 0x39 then some (d.toNat - 0x30)
  else if 0x41 ≤ d ∧ d ≤ 0x46 then some (d.toNat - 0x41 + 10)
  else if 0x61 ≤ d ∧ d ≤ 0x66 then some (d.toNat - 0x61 + 10)
  else none

/-- The code unit that four hexadecimal digits write. -/
def codeUnit? (ds : List UInt8) : Option Nat := do
  let ds ← ds.mapM hexDigit?
  return ds.foldl (fun n d => 16 * n + d) 0

/-- The character of an escape of two characters, by the second one. -/
def escaped? (d : UInt8) : Option UInt8 :=
  if d = 0x22 ∨ d = 0x5c ∨ d = 0x2f then some d
  -- The letters b, f, n, r and t stand for control characters.
  else if d = 0x62 then some 0x08
  else if d = 0x66 then some 0x0c
  else if d = 0x6e then some 0x0a
  else if d = 0x72 then some 0x0d
  else if d = 0x74 then some 0x09
  else none

/-- The byte that starts an escape. -/
def backslash : UInt8 := 0x5c

/-- The pieces of a string as it is written. There must be no control characters in it. -/
def pieces? : Bytes → Option (List Piece)
  | [] => some []
  | d :: rest =>
    if d = backslash then
      match rest with
      | e :: rest =>
        if e = 0x75 then
          match rest with
          | d₁ :: d₂ :: d₃ :: d₄ :: rest => do
            let n ← codeUnit? [d₁, d₂, d₃, d₄]
            let more ← pieces? rest
            return .codeUnit n :: more
          | _ => none
        else do
          let e ← escaped? e
          let more ← pieces? rest
          return .byte e :: more
      | [] => none
    else if d < 0x20 then none
    else (pieces? rest).map (.byte d :: ·)

/-- A code unit is the first half of a character. -/
def isHighHalf (n : Nat) : Bool :=
  0xd800 ≤ n && n ≤ 0xdbff

/-- A code unit is the second half of a character. -/
def isLowHalf (n : Nat) : Bool :=
  0xdc00 ≤ n && n ≤ 0xdfff

/-- The bytes of the character with the given number. -/
def characterBytes (n : Nat) : Bytes :=
  Bytes.ofText (String.singleton (Char.ofNat n))

/-- The bytes that pieces stand for. Halves of characters must come in pairs. -/
def pieceBytes? : List Piece → Option Bytes
  | [] => some []
  | .byte d :: ps => (pieceBytes? ps).map (d :: ·)
  | .codeUnit n :: ps =>
    if isLowHalf n then none
    else if isHighHalf n then
      match ps with
      | .codeUnit m :: ps =>
        if isLowHalf m then
          let number := 0x10000 + (n - 0xd800) * 0x400 + (m - 0xdc00)
          (pieceBytes? ps).map (characterBytes number ++ ·)
        else none
      | _ => none
    else (pieceBytes? ps).map (characterBytes n ++ ·)

/-- The text of a string as it is written. -/
def stringText? (raw : Bytes) : Option String := do
  let bytes ← pieceBytes? (← pieces? raw)
  bytes.toText?

/-! ## Views -/

namespace Value

/-- The text that a value is. -/
def text? : Value → Option String
  | string raw => stringText? raw
  | _ => none

/-- The integer of 64 bits that a value is. -/
def integer? : Value → Option Int
  | number x => x.integer?
  | _ => none

/-- The truth value that a value is. -/
def truth? : Value → Option Bool
  | bool b => some b
  | _ => none

/-- The list of texts that a value is. -/
def texts? : Value → Option (List String)
  | array vs => vs.mapM text?
  | _ => none

mutual

/-- All of the value can be read: its strings and names are texts, its numbers are in range, and its
arrays and objects nest at most `depth` deep. -/
def isReadable : (depth : Nat) → Value → Bool
  | _, null | _, bool _ => true
  | _, number x => x.InRange
  | _, string raw => (stringText? raw).isSome
  | 0, array _ | 0, object _ => false
  | depth + 1, array vs => areReadable depth vs
  | depth + 1, object members => areReadableMembers depth members

/-- All of each value can be read. -/
def areReadable : (depth : Nat) → List Value → Bool
  | _, [] => true
  | depth, v :: vs => isReadable depth v && areReadable depth vs

/-- All of each member can be read. -/
def areReadableMembers : (depth : Nat) → List (Bytes × Value) → Bool
  | _, [] => true
  | depth, (raw, v) :: members =>
    (stringText? raw).isSome && isReadable depth v && areReadableMembers depth members

end

/-- How deep arrays and objects may nest in a text, as far as it is read. -/
def maxDepth : Nat := 127

/-- Members of a record, by their names. -/
abbrev Members := List (String × Value)

/-- The members of an object that have one of the names, none of them repeated. -/
def members? (names : List String) : Value → Option Members
  | object members => do
    let named ← members.mapM fun (raw, v) => do
      return (← stringText? raw, v)
    let known := named.filter fun (name, _) => name ∈ names
    if (known.map Prod.fst).Nodup then some known else none
  | _ => none

/-- The members of a record with the given names. -/
def record? (names : List String) : Value → Option Members
  | array vs => if vs.length = names.length then some (names.zip vs) else none
  | v => v.members? names

/-- The name that a value stands for: a string, or an object with a member of that name and nothing
in it. -/
def name? : Value → Option String
  | string raw => stringText? raw
  | object [(raw, null)] => stringText? raw
  | _ => none

namespace Members

/-- The member with the given name. -/
def get? (members : Members) (name : String) : Option Value :=
  (members.find? fun m => m.1 == name).map Prod.snd

/-- The member with the given name by a view. It may be missing or null, but not of another type. -/
def optional {α : Type} (members : Members) (name : String) (view? : Value → Option α) :
    Option (Option α) :=
  match members.get? name with
  | none => some none
  | some null => some none
  | some v => (view? v).map some

end Members

end Value

end Attestation.Json
