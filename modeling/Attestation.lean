import Attestation.Verifier
import Attestation.Proofs.Cbor.Same
import Attestation.Proofs.Cbor.SelfDelimiting
import Attestation.Proofs.Result
import Attestation.Proofs.AuthenticatorData.Grammar
import Attestation.Proofs.Certificate.Extension
import Attestation.Proofs.Certificate.Key
import Attestation.Proofs.Delimited
import Attestation.Proofs.KeyValue
import Attestation.Proofs.Registration
import Attestation.Proofs.Registration.Decoding
import Attestation.Proofs.Signature
import Attestation.Proofs.Tpm.Attest
import Attestation.Proofs.Tpm.Device
import Attestation.Proofs.Tpm.PublicArea
import Attestation.Proofs.Validator
import Attestation.Proofs.Verification.AndroidKey
import Attestation.Proofs.Verification.Apple
import Attestation.Proofs.Verification.Binding
import Attestation.Proofs.Verification.Credential
import Attestation.Proofs.Verification.Curve
import Attestation.Proofs.Verification.Errors
import Attestation.Proofs.Verification.Verdict
import Attestation.Proofs.Base64
import Attestation.Proofs.SafetyNet.Token
import Attestation.Proofs.Der.Encoding
import Attestation.Proofs.Verification.Payload
import Attestation.Proofs.SafetyNet.Window
import Attestation.Session
import Attestation.Proofs.Dispatch
import Attestation.Proofs.Verification.Configuration
import Attestation.Proofs.Cbor.Writing
import Attestation.Proofs.Statement.Encoding
import Attestation.Proofs.AttestationObject.Encoding
import Attestation.Proofs.PublicKey.Equality
import Attestation.Checked
import Attestation.Checked.Tpm
import Attestation.Proofs.Checked.Read
import Attestation.Proofs.Checked.Tpm
import Attestation.Checked.AuthenticatorData
import Attestation.Proofs.Checked.AuthenticatorData
import Attestation.Checked.PublicKey
import Attestation.Proofs.Checked.PublicKey
import Attestation.Proofs.Checked.Decoders
import Attestation.Checked.Certificate
import Attestation.Proofs.Checked.Certificate
import Attestation.Proofs.PublicKey.Missing
import Attestation.Proofs.PublicKey.Point
import Attestation.Proofs.PublicKey.Conversion
import Attestation.Proofs.Verification.PublicArea
import Attestation.Proofs.Signature.Pairing
import Attestation.Proofs.SafetyNet.Exactness
import Attestation.Proofs.Verification.Model
import Attestation.Proofs.Verification.Attest
import Attestation.Proofs.Tpm.PublicArea.Details
import Attestation.Proofs.FirstFailure
import Attestation.Proofs.Statement.Decoding
import Attestation.Proofs.MapOrder
import Attestation.Proofs.Verification.Order
import Attestation.Proofs.CredentialKey.Encoding
import Attestation.Proofs.Der.SelfDelimiting
import Attestation.Proofs.Der.Integer
import Attestation.Proofs.Der.Writing
import Attestation.Proofs.Der.Value
import Attestation.Proofs.KeyDescription.Authorizations
import Attestation.Proofs.KeyDescription.Encoding
import Attestation.Proofs.Certificate.Classes
import Attestation.Proofs.Certificate.Names
import Attestation.Proofs.Tpm.Attributes
import Attestation.Proofs.Config.Text
import Attestation.Proofs.Config.Environment
import Attestation.Proofs.Tpm.Calls
