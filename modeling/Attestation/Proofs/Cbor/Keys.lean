import Attestation.Cbor.Value

/-!
# Entries by their keys

Decoders look entries up by integers or texts (`Label`). All they can learn of a map that way are
the values under each label, in their written order (`Entries.under`): a look-up gives the first of
them (`Entries.atInt?_eq`, `Entries.atText?_eq`). Those values are the same in every order of a map
that has no label twice (`Entries.Distinct.under_eq`), and whatever entries are put between those of
a map that have none of the labels (`Entries.Insertion.under_eq`); where only the first entry of
each key is left, the first of the values is (`Entries.under_firsts`).
-/

namespace Attestation.Cbor

/-! ## Labels -/

/-- What an entry is looked up by. -/
inductive Label where
  | integer (n : Int)
  | text (s : String)
  deriving DecidableEq

namespace Value

variable {v w : Value}

/-- The label that an item is, if it is one. -/
def label? : Value → Option Label
  | text s => some (.text s)
  | v => v.toInt?.map .integer

/-- The text that an item is, if it is one. -/
def toText? : Value → Option String
  | text s => some s
  | _ => none

/-- The byte string that an item is, if it is one. -/
def toBytes? : Value → Option Bytes
  | bytes b => some b
  | _ => none

/-- The label of a text is the text. -/
theorem label?_eq_text {s : String} : v.label? = some (.text s) ↔ v = .text s := by
  cases v <;> simp [label?, toInt?]

/-- The label of an integer is the integer. -/
theorem label?_eq_integer {n : Int} : v.label? = some (.integer n) ↔ v.toInt? = some n := by
  cases v <;> simp [label?, toInt?]

/-- The same key as a label is that label. -/
theorem same_iff_label? {l : Label} (h : w.label? = some l) :
    same v w = true ↔ v.label? = some l := by
  cases w with
  | text s =>
    cases h
    rw [label?_eq_text]
    cases v <;> simp [same]
  | unsigned n =>
    cases h
    rw [label?_eq_integer]
    cases v with
    | unsigned m =>
      simp only [same, toInt?, beq_iff_eq, Option.some.injEq, ← UInt64.toNat_inj]
      omega
    | negative m =>
      simp only [same, toInt?, Bool.false_eq_true, false_iff, Option.some.injEq]
      omega
    | _ => simp [same, toInt?]
  | negative n =>
    cases h
    rw [label?_eq_integer]
    cases v with
    | unsigned m =>
      simp only [same, toInt?, Bool.false_eq_true, false_iff, Option.some.injEq]
      omega
    | negative m =>
      simp only [same, toInt?, beq_iff_eq, Option.some.injEq, ← UInt64.toNat_inj]
      omega
    | _ => simp [same, toInt?]
  | _ => cases h

end Value

namespace Entries

variable {entries entries' rest : Entries} {e : Value × Value} {l : Label}

/-! ## The values under a label -/

/-- The values of the entries whose key is the label, in their order. -/
def under (entries : Entries) (l : Label) : List Value :=
  entries.filterMap fun e => if e.1.label? = some l then some e.2 else none

/-- Nothing stands under a label in an empty map. -/
@[simp] theorem under_nil : under [] l = [] :=
  rfl

/-- An entry with the label stands under it. -/
theorem under_cons_of_eq (h : e.1.label? = some l) : under (e :: rest) l = e.2 :: under rest l := by
  simp [under, h]

/-- An entry with another label does not stand under it. -/
theorem under_cons_of_ne (h : e.1.label? ≠ some l) : under (e :: rest) l = under rest l := by
  simp [under, h]

/-- The look-up of an integer gives the first value under it. -/
theorem atInt?_eq (entries : Entries) (n : Int) :
    atInt? entries n = (under entries (.integer n)).head? := by
  induction entries with
  | nil => rfl
  | cons e rest ih =>
    by_cases h : e.1.toInt? = some n
    · rw [under_cons_of_eq (Value.label?_eq_integer.2 h)]
      simp [atInt?, h]
    · rw [under_cons_of_ne (mt Value.label?_eq_integer.1 h), ← ih]
      simp [atInt?, h]

/-- The look-up of a text gives the first value under it. -/
theorem atText?_eq (entries : Entries) (name : String) :
    atText? entries name = (under entries (.text name)).head? := by
  induction entries with
  | nil => rfl
  | cons e rest ih =>
    obtain ⟨key, v⟩ := e
    by_cases h : key = .text name
    · rw [under_cons_of_eq (Value.label?_eq_text.2 h)]
      simp [atText?, h]
    · rw [under_cons_of_ne (mt Value.label?_eq_text.1 h), ← ih]
      cases key with
      | text s =>
        have hs : s ≠ name := fun hs => h (congrArg Value.text hs)
        simp [atText?, hs]
      | _ => simp [atText?]

/-! ## Order -/

/-- No label is the key of two entries. -/
def Distinct (entries : Entries) : Prop :=
  entries.Pairwise fun e e' => ∀ l, e.1.label? = some l → e'.1.label? ≠ some l

/-- Keys that differ as items differ as labels. -/
theorem distinct_of_not_same
    (h : entries.Pairwise fun e e' => Value.same e.1 e'.1 = false) : entries.Distinct := by
  refine h.imp fun hsame l hl hl' => ?_
  rw [(Value.same_iff_label? hl').2 hl] at hsame
  cases hsame

/-- Nothing stands under a label that no entry has. -/
theorem under_eq_nil (h : ∀ e ∈ entries, e.1.label? ≠ some l) : under entries l = [] := by
  refine List.filterMap_eq_nil_iff.2 fun e he => ?_
  exact if_neg (h e he)

/-- Where no label is repeated, there is one value at most under each. -/
theorem Distinct.length_under_le (h : entries.Distinct) (l : Label) :
    (under entries l).length ≤ 1 := by
  induction entries with
  | nil => exact Nat.zero_le _
  | cons e rest ih =>
    obtain ⟨hfirst, hrest⟩ := List.pairwise_cons.1 h
    by_cases he : e.1.label? = some l
    · have hnil : under rest l = [] := under_eq_nil fun e' he' => hfirst e' he' l he
      rw [under_cons_of_eq he, hnil]
      exact Nat.le_refl _
    · rw [under_cons_of_ne he]
      exact ih hrest

/-- Where no label is repeated, the values under a label do not depend on the order. -/
theorem Distinct.under_eq (h : entries.Distinct) (hperm : entries.Perm entries') (l : Label) :
    under entries l = under entries' l := by
  have hvalues : (under entries l).Perm (under entries' l) := hperm.filterMap _
  have hlength := h.length_under_le l
  match hunder : under entries l with
  | [] =>
    rw [hunder] at hvalues
    exact hvalues.nil_eq
  | [v] =>
    rw [hunder] at hvalues
    exact hvalues.singleton_eq
  | v :: w :: vs =>
    rw [hunder] at hlength
    exact absurd hlength (by simp)

/-! ## More entries -/

/-- The second map is the first one with more entries, at any places, whose keys are none of the
labels. -/
inductive Insertion (labels : List Label) : Entries → Entries → Prop
  | nil : Insertion labels [] []
  | keep {entries entries' : Entries} (e : Value × Value) :
    Insertion labels entries entries' → Insertion labels (e :: entries) (e :: entries')
  | insert {entries entries' : Entries} {e : Value × Value} :
    (∀ l ∈ labels, e.1.label? ≠ some l) → Insertion labels entries entries' →
      Insertion labels entries (e :: entries')

/-- Entries with other keys leave the values under a label as they are. -/
theorem Insertion.under_eq {labels : List Label} (h : Insertion labels entries entries')
    (hl : l ∈ labels) : under entries l = under entries' l := by
  induction h with
  | nil => rfl
  | keep e _ ih =>
    by_cases he : e.1.label? = some l
    · rw [under_cons_of_eq he, under_cons_of_eq he, ih]
    · rw [under_cons_of_ne he, under_cons_of_ne he, ih]
  | insert hother _ ih => rw [under_cons_of_ne (hother l hl), ih]

/-! ## Repeated keys -/

/-- The entries without those whose key is the one of an earlier entry. -/
def firsts : Entries → Entries
  | [] => []
  | e :: rest => e :: (firsts rest).filter fun e' => !Value.same e.1 e'.1

/-- Nothing stands under a label when the entries with the same key are dropped. -/
theorem under_filter_of_eq (he : e.1.label? = some l) (entries : Entries) :
    under (entries.filter fun e' => !Value.same e.1 e'.1) l = [] := by
  refine under_eq_nil fun e' he' hl => ?_
  have hsame : Value.same e.1 e'.1 = true := (Value.same_iff_label? hl).2 he
  simpa [hsame] using (List.mem_filter.1 he').2

/-- What stands under a label stays when entries with another key are dropped. -/
theorem under_filter_of_ne (he : e.1.label? ≠ some l) (entries : Entries) :
    under (entries.filter fun e' => !Value.same e.1 e'.1) l = under entries l := by
  induction entries with
  | nil => rfl
  | cons e' rest ih =>
    by_cases hsame : Value.same e.1 e'.1 = true
    · have hl : e'.1.label? ≠ some l := fun hl => he ((Value.same_iff_label? hl).1 hsame)
      rw [List.filter_cons_of_neg (by simp [hsame]), under_cons_of_ne hl, ih]
    · rw [List.filter_cons_of_pos (by simp [hsame])]
      by_cases hl : e'.1.label? = some l
      · rw [under_cons_of_eq hl, under_cons_of_eq hl, ih]
      · rw [under_cons_of_ne hl, under_cons_of_ne hl, ih]

/-- Of the values under a label the first one is left. -/
theorem under_firsts (entries : Entries) (l : Label) :
    under (firsts entries) l = (under entries l).take 1 := by
  induction entries with
  | nil => rfl
  | cons e rest ih =>
    rw [firsts]
    by_cases he : e.1.label? = some l
    · rw [under_cons_of_eq he, under_cons_of_eq he, under_filter_of_eq he]
      rfl
    · rw [under_cons_of_ne he, under_cons_of_ne he, under_filter_of_ne he, ih]

/-- Each map with an entry has a first one. -/
theorem firsts_eq_nil : firsts entries = [] ↔ entries = [] := by
  cases entries <;> simp [firsts]

/-! ## Last values -/

/-- The last value under a text that can be read. -/
def last? {α : Type} (entries : Entries) (name : String) (read : Value → Option α) : Option α :=
  ((under entries (.text name)).filterMap read).getLast?

section
variable {α : Type} {name : String} {read : Value → Option α}

/-- The last entry stands after all others under its label. -/
theorem under_concat (entries : Entries) (e : Value × Value) (l : Label) :
    under (entries ++ [e]) l = under entries l ++ under [e] l :=
  List.filterMap_append ..

/-- A value that can be read comes before the earlier ones. -/
theorem last?_concat_of_some {v : Value} {a : α} (h : read v = some a) :
    last? (entries ++ [(.text name, v)]) name read = some a := by
  rw [last?, under_concat, under_cons_of_eq rfl, List.filterMap_append]
  simp [h]

/-- An entry with another key, or with a value that cannot be read, is ignored. -/
theorem last?_concat_of_none (h : e.1 = .text name → read e.2 = none) :
    last? (entries ++ [e]) name read = last? entries name read := by
  rw [last?, under_concat, List.filterMap_append]
  by_cases he : e.1 = .text name
  · rw [under_cons_of_eq (Value.label?_eq_text.2 he)]
    simp [h he, last?]
  · rw [under_cons_of_ne (mt Value.label?_eq_text.1 he)]
    simp [last?]

end

end Entries

end Attestation.Cbor
