import Attestation.Proofs.FirstFailure
import Attestation.Statement

/-!
# The fields of statements

`Statement.fields` lists the fields of each format in the order of the format, with the kind of item
that each of them holds. A field is in order (`Field.InOrder`), or it is at fault for one reason
(`Field.Fault`): that is the check that every step makes that reads the field (`reads_text` to
`reads_certificates`), and what it reads is the item of the field (`text_eq_ok` to
`certificates_eq_ok`).
-/

namespace Attestation

open Cbor (Value Entries Signed64 signed64)

/-- An integer is taken if it fits 64 bits with a sign. -/
theorem Cbor.signed64_eq_ok {m n : Int} : signed64 m = .ok n ↔ m = n ∧ Signed64 n := by
  unfold signed64
  split
  · rename_i hm
    refine ⟨fun h => ?_, fun h => ?_⟩
    · cases h
      exact ⟨rfl, hm⟩
    · rw [h.1]
  · rename_i hm
    refine iff_of_false nofun ?_
    rintro ⟨rfl, hn⟩
    exact hm hn

namespace Statement

/-! ## Kinds of items -/

/-- The kinds of items that fields hold. -/
inductive Kind where
  | text
  | integer
  | bytes
  | certificates

/-- The item is one of the kind: a text, an integer of 64 bits, a byte string, or an array of one
byte string or more. -/
inductive Kind.Has : Kind → Value → Prop
  | text (s : String) : Has text (.text s)
  | integer {v : Value} {n : Int} : v.toInt? = some n → Signed64 n → Has integer v
  | bytes (b : Bytes) : Has bytes (.bytes b)
  | certificates {list : List Bytes} : list ≠ [] → Has certificates (.array (list.map .bytes))

/-- Why the item is none of the kind; `name` is the one of the field. -/
inductive Kind.Refuses (name : String) : Kind → Value → InputFault → Prop
  | text {v : Value} : (∀ s, v ≠ .text s) → Refuses name text v (.notText name)
  | integer {v : Value} : v.toInt? = Option.none → Refuses name integer v (.notInteger name)
  | range {v : Value} {n : Int} :
    v.toInt? = some n → ¬Signed64 n → Refuses name integer v .integerRange
  | bytes {v : Value} : (∀ b, v ≠ .bytes b) → Refuses name bytes v (.notBytes name)
  | array {v : Value} : (∀ vs, v ≠ .array vs) → Refuses name certificates v .certificatesShape
  | empty : Refuses name certificates (.array []) .certificatesEmpty
  | member {v : Value} {vs : List Value} :
    v ∈ vs → (∀ b, v ≠ .bytes b) → Refuses name certificates (.array vs) .certificateShape

/-! ## Fields -/

/-- A field of a statement. -/
structure Field where
  name : String
  kind : Kind
  required : Bool

/-- A field that has to be there. -/
def Field.must (name : String) (kind : Kind) : Field :=
  ⟨name, kind, true⟩

/-- A field that may be absent. -/
def Field.may (name : String) (kind : Kind) : Field :=
  ⟨name, kind, false⟩

open Attestation.Statement.Field (must may)

/-- The fields of the statements of a format. -/
def fields : Format → List Field
  | .tpm => [must "ver" .text, must "alg" .integer, may "x5c" .certificates,
    may "ecdaaKeyId" .bytes, must "sig" .bytes, may "certInfo" .bytes, may "pubArea" .bytes]
  | .packed => [must "alg" .integer, must "sig" .bytes, may "x5c" .certificates,
    may "ecdaaKeyId" .bytes]
  | .androidKey => [must "alg" .integer, must "sig" .bytes, must "x5c" .certificates]
  | .androidSafetyNet => [must "ver" .text, must "response" .bytes]
  | .fidoU2f => [must "sig" .bytes, must "x5c" .certificates]
  | .apple => [must "x5c" .certificates]
  | .none => []

/-- The first entry of the field holds an item of its kind, or the field is absent and may be. -/
inductive Field.InOrder (entries : Entries) (field : Field) : Prop
  | present {v : Value} : entries.atText? field.name = some v → field.kind.Has v →
    InOrder entries field
  | absent : entries.atText? field.name = Option.none → field.required = false →
    InOrder entries field

/-- What is wrong with the field: it is absent and must not be, or its first entry holds an item of
another kind. -/
inductive Field.Fault (entries : Entries) (field : Field) : Error → Prop
  | absent : entries.atText? field.name = Option.none → field.required = true →
    Fault entries field (.missingStatement (.field field.name))
  | present {v : Value} {cause : InputFault} : entries.atText? field.name = some v →
    field.kind.Refuses field.name v cause → Fault entries field (.malformedInput cause)

/-- The first entry of the name holds the integer, which has 64 bits. -/
def IntegerAt (entries : Entries) (name : String) (n : Int) : Prop :=
  ∃ v, entries.atText? name = some v ∧ v.toInt? = some n ∧ Signed64 n

/-- The first entry of the certificates holds them in their order, and there is one at least; or
there is no such entry. -/
def CertificatesAt (entries : Entries) (list : Option (List Bytes)) : Prop :=
  list ≠ some [] ∧ entries.atText? "x5c" = list.map certificateItems

variable {entries : Entries} {name : String} {field : Field} {fields : List Field}

/-! ## One of the two -/

/-- A kind refuses no value that it has. -/
theorem Kind.Has.not_refuses {kind : Kind} {v : Value} {cause : InputFault} (h : kind.Has v) :
    ¬kind.Refuses name v cause := by
  intro hrefuses
  cases h with
  | text s =>
    cases hrefuses with
    | text hne => exact hne s rfl
  | integer hn hrange =>
    cases hrefuses with
    | integer hnone => cases hn.symm.trans hnone
    | range hm hout =>
      cases hn.symm.trans hm
      exact hout hrange
  | bytes b =>
    cases hrefuses with
    | bytes hne => exact hne b rfl
  | certificates hlist =>
    generalize hitem : Value.array _ = v at hrefuses
    cases hrefuses with
    | array hne => exact hne _ hitem.symm
    | empty => exact hlist (List.map_eq_nil_iff.1 (Value.array.inj hitem))
    | member hmem hne =>
      cases hitem
      obtain ⟨b, -, rfl⟩ := List.mem_map.1 hmem
      exact hne b rfl

/-- A kind refuses a value for one cause only. -/
theorem Kind.Refuses.unique {kind : Kind} {v : Value} {cause cause' : InputFault}
    (h : kind.Refuses name v cause) (h' : kind.Refuses name v cause') : cause = cause' := by
  cases h with
  | text => cases h'; rfl
  | integer hnone =>
    cases h' with
    | integer => rfl
    | range hn => cases hnone.symm.trans hn
  | range hn =>
    cases h' with
    | integer hnone => cases hn.symm.trans hnone
    | range => rfl
  | bytes => cases h'; rfl
  | array hne =>
    cases h' with
    | array => rfl
    | empty => exact absurd rfl (hne _)
    | member => exact absurd rfl (hne _)
  | empty =>
    cases h' with
    | array hne => exact absurd rfl (hne _)
    | empty => rfl
    | member hmem => cases hmem
  | member hmem =>
    cases h' with
    | array hne => exact absurd rfl (hne _)
    | empty => cases hmem
    | member => rfl

/-- A field in order has no fault. -/
theorem Field.InOrder.not_fault {e : Error} (h : field.InOrder entries) :
    ¬field.Fault entries e := by
  intro hfault
  cases h with
  | present hv hhas =>
    cases hfault with
    | absent hnone _ => cases hv.symm.trans hnone
    | present hw hrefuses =>
      cases hv.symm.trans hw
      exact hhas.not_refuses hrefuses
  | absent hnone hmay =>
    cases hfault with
    | absent _ hmust => cases hmay.symm.trans hmust
    | present hw _ => cases hnone.symm.trans hw

/-- A field has one fault at most. -/
theorem Field.Fault.unique {e e' : Error} (h : field.Fault entries e)
    (h' : field.Fault entries e') : e = e' := by
  cases h with
  | absent hnone _ =>
    cases h' with
    | absent => rfl
    | present hw _ => cases hnone.symm.trans hw
  | present hv hrefuses =>
    cases h' with
    | absent hnone _ => cases hv.symm.trans hnone
    | present hw hrefuses' =>
      cases hv.symm.trans hw
      rw [hrefuses.unique hrefuses']

/-- Certificates are byte strings, all of them. -/
theorem mapM_certificate_eq_ok {vs : List Value} {list : List Bytes} :
    vs.mapM certificate = .ok list ↔ vs = list.map .bytes := by
  induction vs generalizing list with
  | nil => cases list <;> simp
  | cons v vs ih =>
    rw [List.mapM_cons, bind_eq_ok]
    refine ⟨fun h => ?_, fun h => ?_⟩
    · obtain ⟨der, hder, hrest⟩ := h
      obtain ⟨rest, hmap, hpure⟩ := bind_eq_ok.1 hrest
      cases pure_eq_ok.1 hpure
      unfold certificate at hder
      split at hder
      · cases hder
        rw [ih.1 hmap, List.map_cons]
      · cases hder
    · cases list with
      | nil => cases h
      | cons der list =>
        obtain ⟨rfl, hrest⟩ := List.cons.inj h
        exact ⟨der, rfl, bind_eq_ok.2 ⟨list, ih.2 hrest, rfl⟩⟩

/-- An item that is no byte string is no certificate. -/
theorem mapM_certificate_eq_error {vs : List Value} {e : Error}
    (h : vs.mapM certificate = .error e) :
    (∃ v ∈ vs, ∀ b, v ≠ .bytes b) ∧ e = .malformedInput .certificateShape := by
  induction vs with
  | nil => cases h
  | cons v vs ih =>
    rw [List.mapM_cons] at h
    rcases bind_eq_error.1 h with hfirst | ⟨der, -, hrest⟩
    · unfold certificate at hfirst
      split at hfirst
      · cases hfirst
      · rename_i hne
        cases hfirst
        exact ⟨⟨v, List.mem_cons_self .., hne⟩, rfl⟩
    · rcases bind_eq_error.1 hrest with hrest | ⟨rest, -, hpure⟩
      · obtain ⟨⟨w, hw, hne⟩, he⟩ := ih hrest
        exact ⟨⟨w, .tail _ hw, hne⟩, he⟩
      · cases hpure

/-- A kind has a value or refuses it. -/
theorem Kind.has_or_refuses (kind : Kind) (name : String) (v : Value) :
    kind.Has v ∨ ∃ cause, kind.Refuses name v cause := by
  cases kind with
  | text =>
    cases v with
    | text s => exact .inl (.text s)
    | _ => exact .inr ⟨_, .text nofun⟩
  | integer =>
    cases hn : v.toInt? with
    | none => exact .inr ⟨_, .integer hn⟩
    | some n =>
      by_cases hrange : Signed64 n
      · exact .inl (.integer hn hrange)
      · exact .inr ⟨_, .range hn hrange⟩
  | bytes =>
    cases v with
    | bytes b => exact .inl (.bytes b)
    | _ => exact .inr ⟨_, .bytes nofun⟩
  | certificates =>
    cases v with
    | array vs =>
      cases hmap : vs.mapM certificate with
      | ok list =>
        obtain rfl := mapM_certificate_eq_ok.1 hmap
        by_cases hlist : list = []
        · subst hlist
          exact .inr ⟨_, .empty⟩
        · exact .inl (.certificates hlist)
      | error e =>
        obtain ⟨⟨v, hv, hbytes⟩, -⟩ := mapM_certificate_eq_error hmap
        exact .inr ⟨_, .member hv hbytes⟩
    | _ => exact .inr ⟨_, .array nofun⟩

/-- A field is in order or has a fault. -/
theorem Field.inOrder_or_fault (entries : Entries) (field : Field) :
    field.InOrder entries ∨ ∃ e, field.Fault entries e := by
  cases hv : entries.atText? field.name with
  | none =>
    cases hrequired : field.required with
    | false => exact .inl (.absent hv hrequired)
    | true => exact .inr ⟨_, .absent hv hrequired⟩
  | some v =>
    rcases field.kind.has_or_refuses field.name v with hhas | ⟨cause, hrefuses⟩
    · exact .inl (.present hv hhas)
    · exact .inr ⟨_, .present hv hrefuses⟩

/-- The field is in order, or else what is wrong with it is reported. -/
def Field.check (entries : Entries) (field : Field) : Check where
  Passes := field.InOrder entries
  Fails := field.Fault entries
  not_fails := InOrder.not_fault
  unique := Fault.unique
  decided := field.inOrder_or_fault entries

/-- The step makes the check of the field. -/
abbrev Reads (entries : Entries) (field : Field) {α : Type} (x : Result α) : Prop :=
  Performs [field.check entries] x

/-! ## Texts and integers -/

/-- A text is read as a field that has to be there. -/
theorem reads_text : Reads entries (must name .text) (text entries name) := by
  unfold text
  split
  · rename_i hnone
    exact .of_fails (.absent hnone rfl)
  · rename_i s hs
    exact .of_passes (.present hs (.text s))
  · rename_i v hne hv
    exact .of_fails (.present hv (.text hne))

/-- A text is the value under its name. -/
theorem text_eq_ok {s : String} :
    text entries name = .ok s ↔ entries.atText? name = some (.text s) := by
  unfold text
  split
  · simp_all
  · simp_all
  · rename_i v hne hv
    refine iff_of_false nofun fun h => ?_
    exact hne s (Option.some.inj (hv.symm.trans h))

/-- An integer is read as a field that has to be there. -/
theorem reads_integer : Reads entries (must name .integer) (integer entries name) := by
  unfold integer
  split
  · rename_i hnone
    exact .of_fails (.absent hnone rfl)
  · rename_i v hv
    split
    · rename_i n hn
      unfold signed64
      split
      · rename_i hrange
        exact .of_passes (.present hv (.integer hn hrange))
      · rename_i hrange
        exact .of_fails (.present hv (.range hn hrange))
    · rename_i hnone
      exact .of_fails (.present hv (.integer hnone))

/-- An integer is the value under its name, if it fits 64 bits with a sign. -/
theorem integer_eq_ok {n : Int} :
    integer entries name = .ok n ↔ IntegerAt entries name n := by
  unfold integer IntegerAt
  split
  · simp_all
  · rename_i v hv
    split
    · rename_i m hm
      rw [hv, Cbor.signed64_eq_ok]
      refine ⟨fun h => ?_, fun h => ?_⟩
      · obtain ⟨rfl, hrange⟩ := h
        exact ⟨v, rfl, hm, hrange⟩
      · obtain ⟨_, ⟨⟩, hn, hrange⟩ := h
        exact ⟨Option.some.inj (hm.symm.trans hn), hrange⟩
    · simp_all

/-! ## Byte strings -/

/-- Bytes that may be missing are read as a field that may. -/
theorem reads_bytes? : Reads entries (may name .bytes) (bytes? entries name) := by
  unfold bytes?
  split
  · rename_i hnone
    exact .of_passes (.absent hnone rfl)
  · rename_i b hb
    exact .of_passes (.present hb (.bytes b))
  · rename_i v hne hv
    exact .of_fails (.present hv (.bytes hne))

/-- Bytes that may be missing are the value under their name, if there is one. -/
theorem bytes?_eq_ok {b : Option Bytes} :
    bytes? entries name = .ok b ↔ entries.atText? name = b.map .bytes := by
  unfold bytes?
  split
  · cases b <;> simp_all
  · cases b <;> simp_all
  · rename_i v hne hv
    refine iff_of_false nofun fun h => ?_
    cases b with
    | none => cases hv.symm.trans h
    | some b => exact hne b (Option.some.inj (hv.symm.trans h))

/-- A field that may be absent, read as one that must not be. -/
theorem reads_required {α : Type} {kind : Kind} {x : Result (Option α)}
    (h : Reads entries (may name kind) x)
    (habsent : x = .ok Option.none ↔ entries.atText? name = Option.none) :
    Reads entries (must name kind) (x >>= required name) := by
  rcases h.single with ⟨a, rfl, horder⟩ | ⟨e, rfl, hfault⟩
  · cases a with
    | none => exact .of_fails (.absent (habsent.1 rfl) rfl)
    | some a =>
      cases horder with
      | present hv hhas => exact .of_passes (.present hv hhas)
      | absent hnone _ => cases habsent.2 hnone
  · cases hfault with
    | absent _ hmust => cases hmust
    | present hv hrefuses => exact .of_fails (.present hv hrefuses)

/-- What is required is there. -/
theorem required_eq_ok {α : Type} {x : Option α} {a : α} :
    required name x = .ok a ↔ x = some a := by
  cases x <;> simp [required]

/-- Bytes are read as a field that has to be there. -/
theorem reads_bytes : Reads entries (must name .bytes) (bytes entries name) :=
  reads_required reads_bytes? bytes?_eq_ok

/-- Bytes are the value under their name. -/
theorem bytes_eq_ok {b : Bytes} :
    bytes entries name = .ok b ↔ entries.atText? name = some (.bytes b) := by
  rw [bytes, bind_eq_ok]
  simp [bytes?_eq_ok, required_eq_ok]

/-! ## Certificate lists -/

/-- Certificates that may be missing are read as a field that may. -/
theorem reads_certificates? :
    Reads entries (may "x5c" .certificates) (certificates? entries) := by
  unfold certificates?
  split
  · rename_i hnone
    exact .of_passes (.absent hnone rfl)
  · rename_i hempty
    exact .of_fails (.present hempty .empty)
  · rename_i vs hne hvs
    cases hmap : vs.mapM certificate with
    | ok list =>
      obtain rfl := mapM_certificate_eq_ok.1 hmap
      have hlist : list ≠ [] := by
        rintro rfl
        exact hne rfl
      exact .of_passes (.present hvs (.certificates hlist))
    | error e =>
      obtain ⟨⟨v, hv, hbytes⟩, rfl⟩ := mapM_certificate_eq_error hmap
      exact .of_fails (.present hvs (.member hv hbytes))
  · rename_i v _ hne hv
    exact .of_fails (.present hv (.array hne))

/-- Certificates that may be missing are those of the list, if there is one. -/
theorem certificates?_eq_ok {list : Option (List Bytes)} :
    certificates? entries = .ok list ↔ CertificatesAt entries list := by
  unfold certificates? CertificatesAt
  split
  · cases list <;> simp_all
  · rename_i hempty
    refine iff_of_false nofun fun h => ?_
    obtain ⟨hne, hlist⟩ := h
    cases list with
    | none => simp [hempty] at hlist
    | some list =>
      cases list with
      | nil => exact hne rfl
      | cons der list => simp [hempty, certificateItems] at hlist
  · rename_i vs hne hvs
    rw [map_eq_ok, hvs]
    refine ⟨fun h => ?_, fun h => ?_⟩
    · obtain ⟨certs, hcerts, rfl⟩ := h
      obtain rfl := mapM_certificate_eq_ok.1 hcerts
      refine ⟨fun hnil => ?_, rfl⟩
      cases hnil
      exact hne rfl
    · obtain ⟨-, hlist⟩ := h
      cases list with
      | none => cases hlist
      | some list =>
        cases hlist
        exact ⟨list, mapM_certificate_eq_ok.2 rfl, rfl⟩
  · rename_i v _ hne hv
    refine iff_of_false nofun fun h => ?_
    cases list with
    | none => cases hv.symm.trans h.2
    | some list => exact hne _ (Option.some.inj (hv.symm.trans h.2))

/-- Certificates are read as a field that has to be there. -/
theorem reads_certificates : Reads entries (must "x5c" .certificates) (certificates entries) := by
  refine reads_required reads_certificates? ?_
  rw [certificates?_eq_ok]
  simp [CertificatesAt]

/-- Certificates are those of the list. -/
theorem certificates_eq_ok {list : List Bytes} :
    certificates entries = .ok list ↔ CertificatesAt entries (some list) := by
  rw [certificates, bind_eq_ok]
  simp [certificates?_eq_ok, required_eq_ok]

end Statement

end Attestation
