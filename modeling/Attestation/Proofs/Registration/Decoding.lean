import Attestation.Proofs.Cbor.Same
import Attestation.Proofs.Registration

/-!
# Registrations of decoded objects

The bytes of an object's authenticator data are decoded twice on the way to a registration, with the
object and when the registration is made, and the two results are compared. Both are the same
authenticator data (`AttestationObject.parse_of_decode`), but the comparison fails where a
floating-point number in the extension outputs is no number. Up to that, whatever decodes can be
registered (`Registration.ofObjectBytes_of_decode`).
-/

namespace Attestation

open Cbor (Value)

namespace AuthenticatorData

/-- Every floating-point number in the extension outputs is a number. -/
def NaNFree (d : AuthenticatorData) : Prop :=
  ∀ v ∈ d.extensions, v.NaNFree

/-- Authenticator data are the same as themselves exactly if there is no NaN in them. -/
theorem same_self_iff {d : AuthenticatorData} : d.same d = true ↔ d.NaNFree := by
  have hextensions : sameExtensions d.extensions d.extensions = true ↔ d.NaNFree := by
    unfold NaNFree
    cases d.extensions with
    | none => simp [sameExtensions]
    | some v => simp [sameExtensions, Value.same_self_iff]
  simp [same, hextensions]

end AuthenticatorData

/-- The bytes beside a decoded object are those of its authenticator data. -/
theorem AttestationObject.parse_of_decode {b raw : Bytes} {o : AttestationObject}
    (h : decode b = .ok (o, raw)) : AuthenticatorData.parse raw = .ok o.authData := by
  unfold decode at h
  split at h
  · cases h
  · obtain ⟨_, _, _, _, -, -, hauthData, hobject⟩ := ofFields_eq_ok.1 h
    obtain ⟨-, rfl⟩ := ofParts_eq_ok.1 hobject
    exact hauthData
  · cases h

namespace Registration

/-- Bytes that do not decode to the authenticator data of the object are refused. -/
theorem make_of_not_same {o : AttestationObject} {raw hash : Bytes} {d : AuthenticatorData}
    (hlength : hash.length = 32) (hparse : AuthenticatorData.parse raw = .ok d)
    (hsame : ¬d.same o.authData = true) :
    make o raw hash = .error (.authenticatorData .differentBytes) := by
  unfold make
  rw [dif_pos hlength]
  split
  · rename_i e he
    rw [hparse] at he
    cases he
  · rename_i d' hd'
    obtain rfl : d = d' := Except.ok.inj (hparse.symm.trans hd')
    rw [dif_neg hsame]

/-- A decoded object makes a registration with its own bytes if and only if the extension outputs
have no floating-point number that is none, and is refused for different bytes otherwise. So this
refusal needs such a number, or bytes other than those that were decoded with the object. -/
theorem ofObjectBytes_of_decode {b raw hash : Bytes} {o : AttestationObject}
    (hdecode : AttestationObject.decode b = .ok (o, raw)) (hlength : hash.length = 32) :
    ((∃ r, ofObjectBytes b hash = .ok r ∧ r.object = o ∧ r.authenticatorBytes = raw ∧
        r.clientDataHash = hash ∧ r.signedData = raw ++ hash) ↔ o.authData.NaNFree) ∧
      (ofObjectBytes b hash = .error (.authenticatorData .differentBytes) ↔
        ¬o.authData.NaNFree) ∧
      ∀ raw', make o raw' hash = .error (.authenticatorData .differentBytes) →
        raw' ≠ raw ∨ ¬o.authData.NaNFree := by
  have hparse := AttestationObject.parse_of_decode hdecode
  rw [ofObjectBytes_eq hdecode]
  by_cases hnumbers : o.authData.NaNFree
  · obtain ⟨r, hr⟩ : ∃ r, make o raw hash = .ok r :=
      ⟨_, make_of_decodes hlength hparse (AuthenticatorData.same_self_iff.2 hnumbers)⟩
    obtain ⟨hobject, hbytes, hhash⟩ := parts_of_make hr
    have hsigned : r.signedData = raw ++ hash := by rw [signedData, hbytes, hhash]
    refine ⟨iff_of_true ⟨r, hr, hobject, hbytes, hhash, hsigned⟩ hnumbers,
      iff_of_false ?_ (not_not_intro hnumbers), fun raw' h => .inl ?_⟩
    · rw [hr]
      nofun
    · rintro rfl
      rw [hr] at h
      cases h
  · have hrefused : make o raw hash = .error (.authenticatorData .differentBytes) :=
      make_of_not_same hlength hparse (mt AuthenticatorData.same_self_iff.1 hnumbers)
    refine ⟨iff_of_false ?_ hnumbers, iff_of_true hrefused hnumbers, fun _ _ => .inr hnumbers⟩
    rintro ⟨r, hr, -⟩
    rw [hrefused] at hr
    cases hr

end Registration

namespace ExtensionSample

/-- Authenticator data with one extension output, the floating-point number of the two bytes. -/
def raw (number : Bytes) : Bytes :=
  List.replicate 32 0 ++ [0x80, 0, 0, 0, 0] ++ [0xa1, 0x61, 0x61, 0xf9] ++ number

/-- The object with these authenticator data and an empty statement. -/
def object (number : Bytes) : Bytes :=
  AttestationObject.encode .none (raw number)

def hash : Bytes :=
  List.replicate 32 0

end ExtensionSample

open ExtensionSample (raw object hash)

/-- The extension output is the number 1.5. -/
theorem ofObjectBytes_of_decode_sample :
    ∃ o r, AttestationObject.decode (object [0x3e, 0]) = .ok (o, raw [0x3e, 0]) ∧
      hash.length = 32 ∧ o.authData.NaNFree ∧
      Registration.ofObjectBytes (object [0x3e, 0]) hash = .ok r ∧
      r.signedData = raw [0x3e, 0] ++ hash := by
  obtain ⟨o, hdecode, hextensions⟩ : ∃ o,
      AttestationObject.decode (object [0x3e, 0]) = .ok (o, raw [0x3e, 0]) ∧
        o.authData.extensions = some (.map [(.text "a", .real 0x3ff8000000000000)]) :=
    ⟨_, rfl, rfl⟩
  have hlength : hash.length = 32 := rfl
  have hnumbers : o.authData.NaNFree := by
    intro v hv bits hbits
    rw [hextensions] at hv
    cases hv
    cases List.mem_singleton.1 hbits
    decide
  obtain ⟨r, hr, -, -, -, hsigned⟩ :=
    (Registration.ofObjectBytes_of_decode hdecode hlength).1.2 hnumbers
  exact ⟨o, r, hdecode, hlength, hnumbers, hr, hsigned⟩

/-- The extension output is no number: the object decodes, and is refused with its own bytes. -/
theorem ofObjectBytes_ne_ok_of_nan :
    ∃ o, AttestationObject.decode (object [0x7e, 0]) = .ok (o, raw [0x7e, 0]) ∧
      hash.length = 32 ∧
      Registration.make o (raw [0x7e, 0]) hash = .error (.authenticatorData .differentBytes) ∧
      Registration.ofObjectBytes (object [0x7e, 0]) hash =
        .error (.authenticatorData .differentBytes) := by
  obtain ⟨o, hdecode, hsame⟩ : ∃ o,
      AttestationObject.decode (object [0x7e, 0]) = .ok (o, raw [0x7e, 0]) ∧
        ¬o.authData.same o.authData = true :=
    ⟨_, rfl, by decide⟩
  have hlength : hash.length = 32 := rfl
  have hmake := Registration.make_of_not_same hlength
    (AttestationObject.parse_of_decode hdecode) hsame
  exact ⟨o, hdecode, hlength, hmake, (Registration.ofObjectBytes_eq hdecode).trans hmake⟩

end Attestation
