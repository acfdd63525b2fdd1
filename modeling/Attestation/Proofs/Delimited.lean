import Attestation.Proofs.AuthenticatorData.Grammar
import Attestation.Proofs.Tpm.Attest
import Attestation.Proofs.Tpm.PublicArea

/-!
# Truncation and trailing bytes

Accepted bytes are `Delimited` if the decoder refuses every proper prefix of them, and everything
that goes on after them, as malformed. Authenticator data are, and so are the TPM structures of the
types that are decoded to their end; of another type, what follows only extends the part that is
kept undecoded (`accepted_delimited`). That what goes on is refused follows from the layouts, since
every section and field ends where its own bytes say. That a prefix is refused follows from this
(`Delimited.of_closed`): if it were accepted, the bytes that are cut off would go on after it.
-/

namespace Attestation

/-- The decoder refuses the bytes as malformed when some are cut off at the end, and when some come
after them. -/
structure Delimited {α : Type} (decode : Bytes → Result α) (b : Bytes) : Prop where
  truncated : ∀ front, front <+: b → front ≠ b →
    ∃ cause, decode front = .error (.malformedInput cause)
  extended : ∀ t, t ≠ [] → ∃ cause, decode (b ++ t) = .error (.malformedInput cause)

section
variable {α : Type} {decode : Bytes → Result α} (Closed : α → Prop)

/-- Let some of the accepted values be closed by their bytes, so that more bytes are malformed, and
the others stay open whatever follows. Then the bytes of a closed value are delimited: a prefix of
them is accepted neither as a closed value, for which they would go on, nor as an open one, which
would stay open. -/
theorem Delimited.of_closed
    (hclosed : ∀ {b x t}, decode b = .ok x → Closed x → t ≠ [] →
      ∃ cause, decode (b ++ t) = .error (.malformedInput cause))
    (hopen : ∀ {b x t}, decode b = .ok x → ¬Closed x → ∃ y, decode (b ++ t) = .ok y ∧ ¬Closed y)
    (hrefused : ∀ {b e t x}, decode b = .error e → decode (b ++ t) = .ok x → e.IsMalformed)
    {b : Bytes} {x : α} (hb : decode b = .ok x) (hx : Closed x) : Delimited decode b where
  extended _ ht := hclosed hb hx ht
  truncated front hprefix hne := by
    obtain ⟨t, rfl⟩ := hprefix
    have ht : t ≠ [] := by
      rintro rfl
      exact hne (List.append_nil front).symm
    cases hfront : decode front with
    | error e =>
      obtain ⟨cause⟩ := hrefused hfront hb
      exact ⟨cause, rfl⟩
    | ok y =>
      by_cases hy : Closed y
      · obtain ⟨cause, hmalformed⟩ := hclosed hfront hy ht
        rw [hb] at hmalformed
        cases hmalformed
      · obtain ⟨z, hz, hz'⟩ := hopen (t := t) hfront hy
        rw [hb] at hz
        cases hz
        exact absurd hx hz'

end

/-! ## Authenticator data -/

namespace AuthenticatorData

/-- Bytes after authenticator data are refused, and counted. -/
theorem parse_append_of_eq_ok {b : Bytes} {d : AuthenticatorData} (h : parse b = .ok d) {t : Bytes}
    (ht : t ≠ []) :
    parse (b ++ t) = .error (.malformedInput (.trailing t.length "authenticator data")) := by
  rw [parse_append_of_encoding (encoding_of_parse h), if_neg ht]

/-- A prefix of authenticator data is malformed where it is refused: a key that is not supported
would be refused in the whole as well. -/
theorem isMalformed_of_append {b t : Bytes} {e : Error} {d : AuthenticatorData}
    (he : parse b = .error e) (h : parse (b ++ t) = .ok d) : e.IsMalformed := by
  cases raises_parse b e he with
  | malformed cause => exact .intro cause
  | unsupported cause =>
    have hwhole := parse_unsupported_iff.2 ((parse_unsupported_iff.1 he).append t)
    rw [h] at hwhole
    cases hwhole

/-- Authenticator data cannot be cut short or continued. -/
theorem delimited_parse {b : Bytes} {d : AuthenticatorData} (h : parse b = .ok d) :
    Delimited parse b := by
  refine Delimited.of_closed (fun _ => True) ?_ ?_ isMalformed_of_append h trivial
  · exact fun h _ ht => ⟨_, parse_append_of_eq_ok h ht⟩
  · exact fun _ hopen => absurd trivial hopen

end AuthenticatorData

/-! ## Structures of a TPM -/

namespace Tpm

/-- A certification cannot be cut short or continued. -/
theorem Attest.delimited_parse {b : Bytes} {attest : Attest} (h : parse b = .ok attest)
    (hcertify : attest.type = certifyType) : Delimited parse b := by
  refine Delimited.of_closed (fun attest => attest.type = certifyType) ?_ ?_ ?_ h hcertify
  · exact fun h hcertify ht => ⟨_, parse_append_of_certify h hcertify ht⟩
  · intro b attest t h hother
    obtain ⟨rest, -, hextended⟩ := parse_append_of_other h hother
    exact ⟨_, hextended t, hother⟩
  · exact fun he _ => raises_parse _ _ he

/-- A public area of a known type cannot be cut short or continued. -/
theorem PublicArea.delimited_parse {b : Bytes} {area : PublicArea} (h : parse b = .ok area)
    (hknown : Known area.type) : Delimited parse b := by
  refine Delimited.of_closed (fun area => Known area.type) ?_ ?_ ?_ h hknown
  · exact fun h hknown ht => ⟨_, parse_append_of_known h hknown ht⟩
  · intro b area t h hother
    obtain ⟨rest, -, hextended⟩ := parse_append_of_other h hother
    exact ⟨_, hextended t, hother⟩
  · exact fun he _ => raises_parse _ _ he

end Tpm

/-! ## All three -/

open Tpm (Attest PublicArea)

/-- What is cut off at the end of accepted bytes, and what comes after them, is noticed. TPM
structures of types that are not decoded take what comes after them into their undecoded part and
change in nothing else. -/
theorem accepted_delimited (b : Bytes) :
    (∀ d, AuthenticatorData.parse b = .ok d → Delimited AuthenticatorData.parse b) ∧
    (∀ attest, Attest.parse b = .ok attest →
      (attest.type = Attest.certifyType → Delimited Attest.parse b) ∧
      (attest.type ≠ Attest.certifyType → ∃ rest, attest.attested = .other rest ∧
        ∀ t, Attest.parse (b ++ t) = .ok { attest with attested := .other (rest ++ t) })) ∧
    ∀ area, PublicArea.parse b = .ok area →
      (PublicArea.Known area.type → Delimited PublicArea.parse b) ∧
      (¬PublicArea.Known area.type → ∃ rest, area.body = .other rest ∧
        ∀ t, PublicArea.parse (b ++ t) = .ok { area with body := .other (rest ++ t) }) := by
  refine ⟨fun d h => ?_, fun attest h => ⟨?_, ?_⟩, fun area h => ⟨?_, ?_⟩⟩
  · exact AuthenticatorData.delimited_parse h
  · exact Attest.delimited_parse h
  · exact Attest.parse_append_of_other h
  · exact PublicArea.delimited_parse h
  · exact PublicArea.parse_append_of_other h

namespace DelimitedSample

/-- Authenticator data with an extension output. -/
def data : Bytes :=
  List.replicate 32 0 ++ [0x80, 0, 0, 0, 0] ++ [0xa1, 0x61, 0x61, 0x01]

/-- The structure that certifies an object whose digest is empty. -/
def attest : Bytes :=
  [0xff, 0x54, 0x43, 0x47, 0x80, 0x17, 0, 0, 0, 0] ++ List.replicate 25 0 ++ [0, 2, 0, 0x0b, 0, 0]

/-- The public area of an RSA key of one byte. -/
def area : Bytes :=
  [0, 1, 0, 0x0b, 0, 0, 0, 0, 0, 0] ++ [0, 0x10, 0, 0x10, 8, 0, 0, 0, 0, 0, 0, 1, 5]

end DelimitedSample

/-- Bytes for each of the three parsers. -/
theorem accepted_delimited_samples :
    (∃ d, AuthenticatorData.parse DelimitedSample.data = .ok d ∧
      Delimited AuthenticatorData.parse DelimitedSample.data) ∧
    (∃ s, Attest.parse DelimitedSample.attest = .ok s ∧ s.type = Attest.certifyType ∧
      Delimited Attest.parse DelimitedSample.attest) ∧
    ∃ s, PublicArea.parse DelimitedSample.area = .ok s ∧ PublicArea.Known s.type ∧
      Delimited PublicArea.parse DelimitedSample.area := by
  obtain ⟨d, hd⟩ : ∃ d, AuthenticatorData.parse DelimitedSample.data = .ok d := ⟨_, rfl⟩
  obtain ⟨s, hs, htype⟩ : ∃ s, Attest.parse DelimitedSample.attest = .ok s ∧
      s.type = Attest.certifyType := ⟨_, rfl, rfl⟩
  obtain ⟨p, hp, hknown⟩ : ∃ p, PublicArea.parse DelimitedSample.area = .ok p ∧
      PublicArea.Known p.type := ⟨_, rfl, .inl rfl⟩
  refine ⟨⟨d, hd, ?_⟩, ⟨s, hs, htype, ?_⟩, p, hp, hknown, ?_⟩
  · exact (accepted_delimited _).1 d hd
  · exact ((accepted_delimited _).2.1 s hs).1 htype
  · exact ((accepted_delimited _).2.2 p hp).1 hknown

end Attestation
