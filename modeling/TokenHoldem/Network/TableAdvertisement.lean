import TokenHoldem.Domain.Membership
import TokenHoldem.Network.TablePool

/-!
# Table advertisements

The other signed document of `token-holdem-network/src/table_pool.rs`: a member
of a table tells the pool how full the table is and at which endpoint the next
player is admitted.
-/

namespace TokenHoldem

open Library

inductive TableLifecycle where
  | waiting
  | handInProgress
  | closing
deriving DecidableEq

structure TableAdvertisement where
  version : UInt8
  tableId : TableId
  level : StakeLevel
  memberCount : UInt8
  waitingCount : UInt8
  lifecycle : TableLifecycle
  membershipVersion : UInt64
  membershipHash : Bytes32
  creatorPlayerId : PlayerId
  signerPlayerId : PlayerId
  signerDevicePublicKey : DevicePublicKey
  admissionPeerId : Bytes
  admissionAddresses : List Bytes
  createdAtUnixMs : UInt64
  expiresAtUnixMs : UInt64
  nonce : FixedBytes 16
  attestation : DeviceAttestation
deriving DecidableEq

def tableAdvertisementDomain : Bytes := textBytes "token-holdem/table-advertisement/v2\x00"

def maxAdvertisementLifetimeMs : UInt64 := 30000

/-- The byte `canonical_advertisement_bytes` writes for a lifecycle. -/
def TableLifecycle.tag : TableLifecycle → UInt8
  | .waiting => 0
  | .handInProgress => 1
  | .closing => 2

namespace TableAdvertisement

/-- `canonical_advertisement_bytes`. -/
def canonicalUnsignedBytes (advertisement : TableAdvertisement) : Bytes :=
  tableAdvertisementDomain ++ [advertisement.version] ++ advertisement.tableId.asBytes
    ++ levelBytes advertisement.level
    ++ [advertisement.memberCount, advertisement.waitingCount, advertisement.lifecycle.tag]
    ++ u64Bytes advertisement.membershipVersion ++ advertisement.membershipHash.toBytes
    ++ advertisement.creatorPlayerId.asBytes ++ advertisement.signerPlayerId.asBytes
    ++ advertisement.signerDevicePublicKey.asBytes ++ writeBytes advertisement.admissionPeerId
    ++ writeAddresses advertisement.admissionAddresses ++ u64Bytes advertisement.createdAtUnixMs
    ++ u64Bytes advertisement.expiresAtUnixMs ++ advertisement.nonce.toBytes

variable (P : Primitives)

variable (advertisement : TableAdvertisement)

/-- `validate_advertisement_fields`. -/
def validateFields : Except TablePoolProtocolError Unit := do
  -- `validate_public_level`
  ensure (advertisement.level.minimumPlayers = 2 ∧ advertisement.level.maximumPlayers = 6)
    .invalidPublicLevelPlayerRange
  ensure (advertisement.memberCount.toNat ≤ tableCapacity)
    (.invalidMemberCount advertisement.memberCount)
  ensure (advertisement.waitingCount.toNat ≤ waitingCapacity)
    (.invalidWaitingCount advertisement.waitingCount)
  validateEndpoint P advertisement.admissionPeerId advertisement.admissionAddresses
  ensure (lifetimeWithin advertisement.createdAtUnixMs advertisement.expiresAtUnixMs
    maxAdvertisementLifetimeMs) .invalidAdvertisementValidityWindow

def issue (tableId : TableId) (level : StakeLevel) (memberCount waitingCount : UInt8)
    (lifecycle : TableLifecycle) (membershipVersion : UInt64) (membershipHash : Bytes32)
    (creatorPlayerId : PlayerId) (admissionPeerId : Bytes) (admissionAddresses : List Bytes)
    (createdAtUnixMs expiresAtUnixMs : UInt64) (nonce : FixedBytes 16) (device : DeviceIdentity)
    (certificate : DeviceCertificate) : Except TablePoolProtocolError TableAdvertisement := do
  let unsigned : TableAdvertisement :=
    { version := poolDocumentVersion, tableId, level, memberCount, waitingCount, lifecycle,
      membershipVersion, membershipHash, creatorPlayerId, signerPlayerId := certificate.playerId,
      signerDevicePublicKey := certificate.devicePublicKey, admissionPeerId, admissionAddresses,
      createdAtUnixMs, expiresAtUnixMs, nonce,
      attestation := ⟨certificate, FixedBytes.ofNat 0, FixedBytes.ofNat 0⟩ }
  unsigned.validateFields P
  let attestation ← (DeviceAttestation.issue P tableAdvertisementDomain
    unsigned.canonicalUnsignedBytes createdAtUnixMs device certificate).mapError .attestation
  return { unsigned with attestation }

def verifyAt (now : UInt64) : Except TablePoolProtocolError Unit := do
  ensure (advertisement.version = poolDocumentVersion)
    (.unsupportedAdvertisementVersion advertisement.version)
  advertisement.validateFields P
  ensure (isSignedTimeWindowActive advertisement.createdAtUnixMs advertisement.expiresAtUnixMs now)
    .advertisementExpired
  ensure (advertisement.attestation.certificate.playerId = advertisement.signerPlayerId ∧
    advertisement.attestation.certificate.devicePublicKey = advertisement.signerDevicePublicKey)
    .advertisementIdentityMismatch
  (advertisement.attestation.verify P tableAdvertisementDomain
    advertisement.canonicalUnsignedBytes now).mapError .attestation

end TableAdvertisement

end TokenHoldem
