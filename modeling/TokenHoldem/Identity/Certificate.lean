import TokenHoldem.Domain.StakeLevel
import TokenHoldem.Library.Checked
import TokenHoldem.Primitives

/-!
# Device certificates and signed times

`token-holdem-identity/src/certificate.rs` and `signed_time.rs`. A player is
named by the hash of its root key; the root key certifies device keys, and the
device keys sign everything else.
-/

namespace TokenHoldem

open Library

/-! ## `u64` arithmetic -/

/-- `u64::checked_add`. -/
def checkedAdd (a b : UInt64) : Option UInt64 :=
  if a.toNat + b.toNat < 2 ^ 64 then some (a + b) else none

/-- `u64::saturating_add`. -/
def saturatingAdd (a b : UInt64) : UInt64 :=
  if a.toNat + b.toNat < 2 ^ 64 then a + b else UInt64.ofNat (2 ^ 64 - 1)

/-- `u64::saturating_sub`. -/
def saturatingSub (a b : UInt64) : UInt64 := if b ≤ a then a - b else 0

theorem toNat_saturatingAdd (a b : UInt64) :
    (saturatingAdd a b).toNat = min (a.toNat + b.toNat) (2 ^ 64 - 1) := by
  unfold saturatingAdd
  split
  · rw [UInt64.toNat_add]
    omega
  · rw [UInt64.toNat_ofNat']
    omega

/-! ## Signed times -/

def maxSignedMessageClockSkewMs : UInt64 := 5 * 60 * 1000

def isSignedTimeNotFuture (timestamp now : UInt64) : Bool :=
  timestamp ≤ saturatingAdd now maxSignedMessageClockSkewMs

def isSignedTimeBeforeExpiry (timestamp expiresAt : UInt64) : Bool :=
  timestamp < saturatingAdd expiresAt maxSignedMessageClockSkewMs

def isSignedTimeWindowActive (createdAt expiresAt now : UInt64) : Bool :=
  isSignedTimeNotFuture createdAt now && isSignedTimeBeforeExpiry now expiresAt

/-! ## Certificates -/

def deviceCertificateVersion : UInt8 := 1

/-- The signing key of a device, by its seed. -/
structure DeviceIdentity where
  seed : Bytes32

/-- The signing key of a player, by its seed. -/
structure RootIdentity where
  seed : Bytes32

structure DeviceCertificate where
  version : UInt8
  playerId : PlayerId
  rootPublicKey : Bytes32
  devicePublicKey : DevicePublicKey
  label : String
  issuedAtUnixMs : UInt64
  expiresAtUnixMs : UInt64
  rootSignature : SignatureBytes
deriving DecidableEq

inductive CertificateError where
  | invalidValidityWindow
  | invalidLabel
  | unsupportedVersion (version : UInt8)
  | invalidRootPublicKey
  | invalidDevicePublicKey
  | playerIdMismatch
  | invalidRootSignature
  | invalidDeviceSignature
  | outsideValidityWindow
deriving DecidableEq

namespace DeviceCertificate

def canonicalUnsignedBytes (certificate : DeviceCertificate) : Bytes :=
  textBytes "token-holdem/device-certificate/v1\x00" ++ [certificate.version]
    ++ certificate.playerId.asBytes ++ certificate.rootPublicKey.toBytes
    ++ certificate.devicePublicKey.asBytes ++ writeBytes (textBytes certificate.label)
    ++ u64Bytes certificate.issuedAtUnixMs ++ u64Bytes certificate.expiresAtUnixMs

end DeviceCertificate

section

variable (P : Primitives)

def playerIdFromRootKey (rootKey : Bytes32) : PlayerId :=
  ⟨P.hash (textBytes "token-holdem/player-id/v1\x00" ++ rootKey.toBytes)⟩

def DeviceIdentity.publicKey (device : DeviceIdentity) : DevicePublicKey :=
  ⟨P.verifyingKey device.seed⟩

def DeviceIdentity.sign (device : DeviceIdentity) (message : Bytes) : SignatureBytes :=
  P.sign device.seed message

def RootIdentity.playerId (root : RootIdentity) : PlayerId :=
  playerIdFromRootKey P (P.verifyingKey root.seed)

def RootIdentity.issueDeviceCertificate (root : RootIdentity) (devicePublicKey : DevicePublicKey)
    (label : String) (issuedAtUnixMs expiresAtUnixMs : UInt64) :
    Except CertificateError DeviceCertificate := do
  ensure (issuedAtUnixMs < expiresAtUnixMs) .invalidValidityWindow
  ensure (isBlank label = false ∧ (textBytes label).length ≤ 80) .invalidLabel
  let certificate : DeviceCertificate :=
    { version := deviceCertificateVersion, playerId := root.playerId P,
      rootPublicKey := P.verifyingKey root.seed, devicePublicKey, label, issuedAtUnixMs,
      expiresAtUnixMs, rootSignature := FixedBytes.ofNat 0 }
  return { certificate with
    rootSignature := P.sign root.seed certificate.canonicalUnsignedBytes }

namespace DeviceCertificate

variable (certificate : DeviceCertificate)

def verifyAt (now : UInt64) : Except CertificateError Unit := do
  ensure (certificate.version = deviceCertificateVersion) (.unsupportedVersion certificate.version)
  ensure (P.validKey certificate.rootPublicKey) .invalidRootPublicKey
  ensure (playerIdFromRootKey P certificate.rootPublicKey = certificate.playerId) .playerIdMismatch
  ensure (P.verifies certificate.rootPublicKey certificate.canonicalUnsignedBytes
    certificate.rootSignature) .invalidRootSignature
  ensure (isSignedTimeWindowActive certificate.issuedAtUnixMs certificate.expiresAtUnixMs now)
    .outsideValidityWindow

def verifyDeviceSignature (message : Bytes) (signature : SignatureBytes) :
    Except CertificateError Unit := do
  ensure (P.validKey certificate.devicePublicKey.bytes) .invalidDevicePublicKey
  ensure (P.verifies certificate.devicePublicKey.bytes message signature) .invalidDeviceSignature

end DeviceCertificate

end

end TokenHoldem
