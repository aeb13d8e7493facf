import TokenHoldem.Identity.Attestation
import TokenHoldem.Library.Collections

/-!
# Pool tickets

The part of `token-holdem-network/src/table_pool.rs` that a table session uses:
a player's signed request for a seat at some level, with the network endpoint
it can be reached at (`session_endpoint.rs`).
-/

namespace TokenHoldem

open Library

inductive SessionEndpointError where
  | invalidPeerId
  | invalidAddresses
  | addressPeerIdMismatch

inductive TablePoolProtocolError where
  | unsupportedTicketVersion (version : UInt8)
  | unsupportedAdvertisementVersion (version : UInt8)
  | invalidPeerId
  | invalidAddresses
  | addressPeerIdMismatch
  | invalidPublicLevelPlayerRange
  | invalidBuyIn
  | invalidMemberCount (count : UInt8)
  | invalidWaitingCount (count : UInt8)
  | invalidTicketValidityWindow
  | invalidAdvertisementValidityWindow
  | ticketExpired
  | advertisementExpired
  | ticketIdentityMismatch
  | advertisementIdentityMismatch
  | attestation (error : DeviceAttestationError)
deriving DecidableEq

structure PoolTicket where
  version : UInt8
  playerId : PlayerId
  devicePublicKey : DevicePublicKey
  sessionPeerId : Bytes
  sessionAddresses : List Bytes
  level : StakeLevel
  requestedBuyIn : Chips
  createdAtUnixMs : UInt64
  expiresAtUnixMs : UInt64
  nonce : FixedBytes 16
  attestation : DeviceAttestation
deriving DecidableEq

/-- `write_level`. -/
def levelBytes (level : StakeLevel) : Bytes :=
  writeBytes (textBytes level.id) ++ level.smallBlind.toBytes ++ level.bigBlind.toBytes
    ++ level.minimumBuyIn.toBytes ++ level.maximumBuyIn.toBytes
    ++ [level.minimumPlayers, level.maximumPlayers]

/-- The last `/p2p` component of an address. -/
def lastPeerId (address : Multiaddr) : Option PeerId :=
  (address.filterMap fun protocol => match protocol with
    | .p2p peerId => some peerId
    | _ => none).getLast?

def poolTicketDomain : Bytes := textBytes "token-holdem/pool-ticket/v2\x00"

def poolDocumentVersion : UInt8 := 2

def maxTicketLifetimeMs : UInt64 := 60 * 60 * 1000

section

variable (P : Primitives)

/-- The loop of `validate_session_endpoint` over the addresses. -/
def checkAddresses (expected : PeerId) : List Bytes → List Bytes → Except SessionEndpointError Unit
  | _, [] => .ok ()
  | seen, raw :: rest => do
    ensure (raw ≠ [] ∧ raw.length ≤ 512 ∧ raw ∉ seen) .invalidAddresses
    let address ← okOr .invalidAddresses (P.multiaddr raw)
    ensure (lastPeerId address = some expected) .addressPeerIdMismatch
    checkAddresses expected (raw :: seen) rest

def validateSessionEndpoint (peerId : Bytes) (addresses : List Bytes) :
    Except SessionEndpointError PeerId := do
  let expected ← okOr .invalidPeerId (P.peerIdFromBytes peerId)
  ensure (addresses ≠ [] ∧ addresses.length ≤ 8) .invalidAddresses
  checkAddresses P expected [] addresses
  return expected

def validateEndpoint (peerId : Bytes) (addresses : List Bytes) :
    Except TablePoolProtocolError Unit :=
  match validateSessionEndpoint P peerId addresses with
  | .ok _ => .ok ()
  | .error .invalidPeerId => .error .invalidPeerId
  | .error .invalidAddresses => .error .invalidAddresses
  | .error .addressPeerIdMismatch => .error .addressPeerIdMismatch

end

/-- `expires_at.checked_sub(created_at)` is positive and at most `maximum`: the
windows of `validate_window`, in both the pool and the session protocol. -/
def lifetimeWithin (createdAt expiresAt maximum : UInt64) : Prop :=
  createdAt < expiresAt ∧ expiresAt - createdAt ≤ maximum
deriving Decidable

namespace PoolTicket

/-- `canonical_ticket_bytes`. -/
def canonicalUnsignedBytes (ticket : PoolTicket) : Bytes :=
  poolTicketDomain ++ [ticket.version] ++ ticket.playerId.asBytes
    ++ ticket.devicePublicKey.asBytes ++ writeBytes ticket.sessionPeerId
    ++ writeAddresses ticket.sessionAddresses ++ levelBytes ticket.level
    ++ ticket.requestedBuyIn.toBytes ++ u64Bytes ticket.createdAtUnixMs
    ++ u64Bytes ticket.expiresAtUnixMs ++ ticket.nonce.toBytes

theorem devicePublicKey_eq_of_canonicalUnsignedBytes {a b : PoolTicket}
    (h : a.canonicalUnsignedBytes = b.canonicalUnsignedBytes) :
    a.devicePublicKey = b.devicePublicKey := by
  simp only [canonicalUnsignedBytes, List.append_assoc] at h
  obtain ⟨-, h⟩ := List.append_inj h rfl
  obtain ⟨-, h⟩ := List.append_inj h rfl
  obtain ⟨-, h⟩ := List.append_inj h (by simp)
  exact Identifier.asBytes_injective (List.append_inj h (by simp)).1

variable (P : Primitives)

variable (ticket : PoolTicket)

/-- `validate_ticket_fields`. -/
def validateFields : Except TablePoolProtocolError Unit := do
  validateEndpoint P ticket.sessionPeerId ticket.sessionAddresses
  -- `validate_public_level`
  ensure (ticket.level.minimumPlayers = 2 ∧ ticket.level.maximumPlayers = 6)
    .invalidPublicLevelPlayerRange
  ensure (ticket.level.minimumBuyIn ≤ ticket.requestedBuyIn ∧
    ticket.requestedBuyIn ≤ ticket.level.maximumBuyIn) .invalidBuyIn
  ensure (lifetimeWithin ticket.createdAtUnixMs ticket.expiresAtUnixMs maxTicketLifetimeMs)
    .invalidTicketValidityWindow

def issue (sessionPeerId : Bytes) (sessionAddresses : List Bytes) (level : StakeLevel)
    (requestedBuyIn : Chips) (createdAtUnixMs expiresAtUnixMs : UInt64) (nonce : FixedBytes 16)
    (device : DeviceIdentity) (certificate : DeviceCertificate) :
    Except TablePoolProtocolError PoolTicket := do
  let unsigned : PoolTicket :=
    { version := poolDocumentVersion, playerId := certificate.playerId,
      devicePublicKey := certificate.devicePublicKey, sessionPeerId, sessionAddresses, level,
      requestedBuyIn, createdAtUnixMs, expiresAtUnixMs, nonce,
      attestation := ⟨certificate, FixedBytes.ofNat 0, FixedBytes.ofNat 0⟩ }
  unsigned.validateFields P
  let attestation ← (DeviceAttestation.issue P poolTicketDomain unsigned.canonicalUnsignedBytes
    createdAtUnixMs device certificate).mapError .attestation
  return { unsigned with attestation }

def verifyAt (now : UInt64) : Except TablePoolProtocolError Unit := do
  ensure (ticket.version = poolDocumentVersion) (.unsupportedTicketVersion ticket.version)
  ticket.validateFields P
  ensure (isSignedTimeWindowActive ticket.createdAtUnixMs ticket.expiresAtUnixMs now) .ticketExpired
  ensure (ticket.attestation.certificate.playerId = ticket.playerId ∧
    ticket.attestation.certificate.devicePublicKey = ticket.devicePublicKey)
    .ticketIdentityMismatch
  (ticket.attestation.verify P poolTicketDomain ticket.canonicalUnsignedBytes now).mapError
    .attestation

def id : PoolTicketId := ⟨P.hash ticket.canonicalUnsignedBytes⟩

end PoolTicket

end TokenHoldem
