import TokenHoldem.Identity.Certificate

/-!
# Device attestations

`token-holdem-identity/src/attestation.rs`. Every signed document carries one:
the device's certificate, the hash of the document and the device's signature
over the hash and the kind of document (the *domain*).

- `canonicalSigningBytes_inj`: what is signed determines the domain and the hash,
  so a signature for one kind of document is none for another;
- `issue_eq_ok`, `verify_eq_ok`: what a successful call has established.
-/

namespace TokenHoldem

open Library

inductive DeviceAttestationError where
  | certificate (error : CertificateError)
  | deviceKeyMismatch
  | payloadHashMismatch
deriving DecidableEq

/-- The signature of a device over the hash of a document. -/
structure DeviceAttestation where
  certificate : DeviceCertificate
  payloadHash : Bytes32
  signature : SignatureBytes
deriving DecidableEq

/-- What the device signs. -/
def canonicalSigningBytes (domain : Bytes) (payloadHash : Bytes32) : Bytes :=
  textBytes "token-holdem/device-attestation/v1\x00" ++ u32Bytes domain.length ++ domain
    ++ payloadHash.toBytes

/-- It determines the domain and the hash. -/
theorem canonicalSigningBytes_inj {d d' : Bytes} {h h' : Bytes32}
    (heq : canonicalSigningBytes d h = canonicalSigningBytes d' h') : d = d' ∧ h = h' := by
  -- the hash is the last 32 bytes, the domain what remains after a fixed header
  obtain ⟨hhead, hhash⟩ := List.append_inj' heq (by simp)
  have htail := List.append_cancel_left (by simpa only [List.append_assoc] using hhead)
  exact ⟨(List.append_inj htail (by simp)).2, FixedBytes.toBytes_injective hhash⟩

namespace DeviceAttestation

variable (P : Primitives)

/-- A device attests a payload, with its own valid certificate. -/
def issue (domain payload : Bytes) (now : UInt64) (device : DeviceIdentity)
    (certificate : DeviceCertificate) : Except DeviceAttestationError DeviceAttestation := do
  (certificate.verifyAt P now).mapError .certificate
  ensure (certificate.devicePublicKey = device.publicKey P) .deviceKeyMismatch
  let payloadHash := P.hash payload
  return { certificate, payloadHash,
           signature := device.sign P (canonicalSigningBytes domain payloadHash) }

/-- The certificate is valid, and its device has signed this payload. -/
def verify (attestation : DeviceAttestation) (domain payload : Bytes) (now : UInt64) :
    Except DeviceAttestationError Unit := do
  (attestation.certificate.verifyAt P now).mapError .certificate
  ensure (P.hash payload = attestation.payloadHash) .payloadHashMismatch
  (attestation.certificate.verifyDeviceSignature P
    (canonicalSigningBytes domain attestation.payloadHash) attestation.signature).mapError
      .certificate

variable {P}

variable {attestation : DeviceAttestation}

theorem issue_eq_ok {domain payload : Bytes} {now : UInt64} {device : DeviceIdentity}
    {certificate : DeviceCertificate}
    (h : issue P domain payload now device certificate = .ok attestation) :
    certificate.devicePublicKey = device.publicKey P ∧ attestation = ⟨certificate, P.hash payload,
        device.sign P (canonicalSigningBytes domain (P.hash payload))⟩ := by
  unfold issue at h
  obtain ⟨-, h⟩ := unit_bind_eq_ok.mp h
  obtain ⟨hkey, h⟩ := ensure_bind_eq_ok.mp h
  exact ⟨hkey, (Except.ok.inj h).symm⟩

/-- A verified attestation binds the payload, and its signature verifies under
the certified device key. -/
theorem verify_eq_ok {domain payload : Bytes} {now : UInt64}
    (h : attestation.verify P domain payload now = .ok ()) :
    attestation.payloadHash = P.hash payload ∧
      P.verifies attestation.certificate.devicePublicKey.bytes
        (canonicalSigningBytes domain (P.hash payload)) attestation.signature = true := by
  unfold verify at h
  obtain ⟨-, h⟩ := unit_bind_eq_ok.mp h
  obtain ⟨hhash, h⟩ := ensure_bind_eq_ok.mp h
  rw [mapError_eq_ok_iff] at h
  unfold DeviceCertificate.verifyDeviceSignature at h
  obtain ⟨-, h⟩ := ensure_bind_eq_ok.mp h
  rw [ensure_eq_ok, ← hhash] at h
  exact ⟨hhash.symm, h⟩

end DeviceAttestation

end TokenHoldem
