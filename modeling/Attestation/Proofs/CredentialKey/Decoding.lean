import Attestation.CredentialKey
import Attestation.Proofs.Result

/-!
# Refusals of credential keys

A COSE map that is no credential key is refused as malformed, or as an algorithm that is not
supported, and for no other kind of reason (`CredentialKey.raises_ofCbor`).
-/

namespace Attestation

open Cbor (Value)

namespace CredentialKey

open Error (OfDecoding)

/-- An integer out of range is an error of decoding. -/
theorem raises_signed64 (n : Int) : Raises OfDecoding (Cbor.signed64 n) := by
  unfold Cbor.signed64
  split
  · exact .ok n
  · exact .error (.malformed _)

/-- A key type that is missing or out of range is an error of decoding. -/
theorem raises_readKeyType (entries : Cbor.Entries) : Raises OfDecoding (readKeyType entries) := by
  unfold readKeyType
  split
  · exact raises_signed64 _
  · exact .error (.malformed _)

/-- An algorithm that is no integer or out of range is an error of decoding. -/
theorem raises_readAlg (entries : Cbor.Entries) : Raises OfDecoding (readAlg entries) := by
  unfold readAlg
  split
  · exact .ok none
  · split
    · exact (raises_signed64 _).map some
    · exact .error (.malformed _)

/-- A curve that is missing, out of range or not supported is an error of decoding. -/
theorem raises_readCurve (entries : Cbor.Entries) : Raises OfDecoding (readCurve entries) := by
  unfold readCurve
  split
  · exact .error (.malformed _)
  · refine (raises_signed64 _).bind fun id => ?_
    split
    · exact .ok _
    · exact .error (.unsupported _)

/-- Another curve for an octet key is an error of decoding. -/
theorem raises_checkOctetKeyCurve (entries : Cbor.Entries) :
    Raises OfDecoding (checkOctetKeyCurve entries) := by
  unfold checkOctetKeyCurve
  split
  · exact .error (.unsupported _)
  · refine (raises_signed64 _).bind fun id => ?_
    split
    · exact .ok ()
    · exact .error (.unsupported _)

/-- A part of a key that is no byte string is an error of decoding. -/
theorem raises_readBytes (entries : Cbor.Entries) (label : Int) (field : String) :
    Raises OfDecoding (readBytes entries label field) := by
  unfold readBytes
  split
  · exact .ok _
  · exact .error (.malformed _)
  · exact .error (.malformed _)

/-- The parts of a key, whatever its type, are refused with errors of decoding. -/
theorem raises_readFields (entries : Cbor.Entries) (keyType : Int) (alg : Option Int) :
    Raises OfDecoding (readFields entries keyType alg) := by
  unfold readFields
  split
  · refine (raises_readCurve entries).bind fun curve => ?_
    refine (raises_readBytes entries _ _).bind fun x => ?_
    exact (raises_readBytes entries _ _).bind fun y => .pure _
  split
  · refine (raises_checkOctetKeyCurve entries).bind fun _ => ?_
    exact (raises_readBytes entries _ _).bind fun x => .pure _
  split
  · refine (raises_readBytes entries _ _).bind fun modulus => ?_
    exact (raises_readBytes entries _ _).bind fun exponent => .pure _
  · exact .error (.unsupported _)

/-- All that a key is refused with are errors of decoding. -/
theorem raises_ofCbor (v : Value) : Raises OfDecoding (ofCbor v) := by
  unfold ofCbor
  split
  · refine (raises_readKeyType _).bind fun keyType => ?_
    exact (raises_readAlg _).bind fun alg => raises_readFields _ keyType alg
  · exact .error (.malformed _)

end CredentialKey

end Attestation
