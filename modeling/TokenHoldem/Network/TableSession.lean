import TokenHoldem.Domain.Membership
import TokenHoldem.Network.TablePool

/-!
# Signed documents of a table session

`token-holdem-network/src/table_session.rs`: players ask to join or leave, a
coordinator proposes the next membership, and every seated player accepts it.
-/

namespace TokenHoldem

open Library

inductive TableSessionProtocolError where
  | unsupportedJoinIntentVersion (version : UInt8)
  | unsupportedLeaveIntentVersion (version : UInt8)
  | unsupportedMembershipProposalVersion (version : UInt8)
  | unsupportedSignedMembershipProposalVersion (version : UInt8)
  | unsupportedMembershipAcceptanceVersion (version : UInt8)
  | invalidIntentValidityWindow
  | joinIntentOutsideTicketWindow
  | joinIntentExpired
  | leaveIntentExpired
  | joinIntentIdentityMismatch
  | leaveIntentIdentityMismatch
  | invalidHandNumber
  | invalidMembershipVersion
  | invalidMembershipSize (size : Nat)
  | waitingListFull
  | tooManyLeaveIntents
  | wrongTable
  | wrongStakeLevel
  | nonCanonicalOrdering
  | duplicateLeaveIntent
  | membershipProposalHashMismatch
  | missingCoordinator
  | unauthorizedCoordinator
  | claimNotInMembership (claimId : JoinClaimId)
  | acceptanceProposalMismatch
  | acceptanceIdentityMismatch
  | acceptanceOutsideValidityWindow
  | duplicateAcceptance
  | incompleteAcceptances
  | pool (error : TablePoolProtocolError)
  | attestation (error : DeviceAttestationError)
  | membership (error : MembershipError)
deriving DecidableEq

def maxIntentLifetimeMs : UInt64 := 60 * 60 * 1000

/-- `validate_window` of the session protocol. -/
def validateIntentWindow (createdAt expiresAt : UInt64) : Except TableSessionProtocolError Unit :=
  ensure (lifetimeWithin createdAt expiresAt maxIntentLifetimeMs) .invalidIntentValidityWindow

/-! ## Joining -/

structure JoinIntent where
  version : UInt8
  tableId : TableId
  ticket : PoolTicket
  createdAtUnixMs : UInt64
  expiresAtUnixMs : UInt64
  nonce : FixedBytes 16
  attestation : DeviceAttestation
deriving DecidableEq

def joinIntentDomain : Bytes := textBytes "token-holdem/join-intent/v1\x00"

namespace JoinIntent

def playerId (intent : JoinIntent) : PlayerId := intent.ticket.playerId

def devicePublicKey (intent : JoinIntent) : DevicePublicKey := intent.ticket.devicePublicKey

def level (intent : JoinIntent) : StakeLevel := intent.ticket.level

variable (P : Primitives)

variable (intent : JoinIntent)

/-- `canonical_join_intent_bytes`. -/
def canonicalUnsignedBytes : Bytes :=
  joinIntentDomain ++ [intent.version] ++ intent.tableId.asBytes ++ (intent.ticket.id P).asBytes
    ++ u64Bytes intent.createdAtUnixMs ++ u64Bytes intent.expiresAtUnixMs ++ intent.nonce.toBytes

def claimId : JoinClaimId := ⟨P.hash (intent.canonicalUnsignedBytes P)⟩

def asCandidate : JoinCandidate :=
  { claimId := intent.claimId P, playerId := intent.playerId,
    devicePublicKey := intent.devicePublicKey, buyIn := intent.ticket.requestedBuyIn }

/-- `validate_join_window`. -/
def validateWindow (ticket : PoolTicket) (createdAt expiresAt : UInt64) :
    Except TableSessionProtocolError Unit := do
  validateIntentWindow createdAt expiresAt
  ensure (isSignedTimeNotFuture ticket.createdAtUnixMs createdAt ∧
    isSignedTimeBeforeExpiry expiresAt ticket.expiresAtUnixMs) .joinIntentOutsideTicketWindow

def issue (tableId : TableId) (ticket : PoolTicket) (createdAtUnixMs expiresAtUnixMs : UInt64)
    (nonce : FixedBytes 16) (device : DeviceIdentity) (certificate : DeviceCertificate) :
    Except TableSessionProtocolError JoinIntent := do
  (ticket.verifyAt P createdAtUnixMs).mapError .pool
  validateWindow ticket createdAtUnixMs expiresAtUnixMs
  -- `validate_ticket_signer`
  ensure (ticket.playerId = certificate.playerId ∧
    ticket.devicePublicKey = certificate.devicePublicKey ∧
    ticket.devicePublicKey = device.publicKey P) .joinIntentIdentityMismatch
  let unsigned : JoinIntent :=
    { version := 1, tableId, ticket, createdAtUnixMs, expiresAtUnixMs, nonce,
      attestation := ⟨certificate, FixedBytes.ofNat 0, FixedBytes.ofNat 0⟩ }
  let attestation ← (DeviceAttestation.issue P joinIntentDomain
    (unsigned.canonicalUnsignedBytes P) createdAtUnixMs device certificate).mapError .attestation
  return { unsigned with attestation }

def verifyAt (intent : JoinIntent) (now : UInt64) : Except TableSessionProtocolError Unit := do
  ensure (intent.version = 1) (.unsupportedJoinIntentVersion intent.version)
  (intent.ticket.verifyAt P now).mapError .pool
  validateWindow intent.ticket intent.createdAtUnixMs intent.expiresAtUnixMs
  ensure (isSignedTimeWindowActive intent.createdAtUnixMs intent.expiresAtUnixMs now)
    .joinIntentExpired
  ensure (intent.attestation.certificate.playerId = intent.ticket.playerId ∧
    intent.attestation.certificate.devicePublicKey = intent.ticket.devicePublicKey)
    .joinIntentIdentityMismatch
  (intent.attestation.verify P joinIntentDomain (intent.canonicalUnsignedBytes P) now).mapError
    .attestation

/-- `validate_join_signer`. -/
def validateSigner (device : DeviceIdentity) (certificate : DeviceCertificate) : Prop :=
  intent.playerId = certificate.playerId ∧
    intent.devicePublicKey = certificate.devicePublicKey ∧
    intent.devicePublicKey = device.publicKey P
deriving Decidable

variable {P}

theorem ticketId_eq_of_canonicalUnsignedBytes {a b : JoinIntent}
    (h : a.canonicalUnsignedBytes P = b.canonicalUnsignedBytes P) :
    a.ticket.id P = b.ticket.id P := by
  unfold canonicalUnsignedBytes at h
  obtain ⟨h, -⟩ := List.append_inj' h (by simp)
  obtain ⟨h, -⟩ := List.append_inj' h (by simp)
  obtain ⟨h, -⟩ := List.append_inj' h (by simp)
  exact Identifier.asBytes_injective (List.append_inj' h (by simp)).2

theorem issue_eq_ok {tableId : TableId} {ticket : PoolTicket} {createdAt expiresAt : UInt64}
    {nonce : FixedBytes 16} {device : DeviceIdentity} {certificate : DeviceCertificate}
    {intent : JoinIntent}
    (h : issue P tableId ticket createdAt expiresAt nonce device certificate = .ok intent) :
    intent.ticket = ticket := by
  unfold issue at h
  obtain ⟨-, h⟩ := unit_bind_eq_ok.mp h
  obtain ⟨-, h⟩ := unit_bind_eq_ok.mp h
  obtain ⟨-, h⟩ := ensure_bind_eq_ok.mp h
  obtain ⟨attestation, -, h⟩ := bind_eq_ok.mp h
  cases h
  rfl

end JoinIntent

/-! ## Leaving -/

structure LeaveIntent where
  version : UInt8
  tableId : TableId
  afterHandNumber : Option UInt64
  membershipVersion : UInt64
  playerId : PlayerId
  devicePublicKey : DevicePublicKey
  createdAtUnixMs : UInt64
  expiresAtUnixMs : UInt64
  nonce : FixedBytes 16
  attestation : DeviceAttestation
deriving DecidableEq

def leaveIntentDomain : Bytes := textBytes "token-holdem/leave-intent/v1\x00"

namespace LeaveIntent

/-- `canonical_leave_intent_bytes`. -/
def canonicalUnsignedBytes (intent : LeaveIntent) : Bytes :=
  leaveIntentDomain ++ [intent.version] ++ intent.tableId.asBytes
    ++ (match intent.afterHandNumber with
      | some handNumber => 1 :: u64Bytes handNumber
      | none => [0])
    ++ u64Bytes intent.membershipVersion ++ intent.playerId.asBytes
    ++ intent.devicePublicKey.asBytes ++ u64Bytes intent.createdAtUnixMs
    ++ u64Bytes intent.expiresAtUnixMs ++ intent.nonce.toBytes

/-- `validate_leave_fields`. -/
def validateFields (afterHandNumber : Option UInt64) (createdAt expiresAt : UInt64) :
    Except TableSessionProtocolError Unit := do
  ensure (afterHandNumber ≠ some 0) .invalidHandNumber
  validateIntentWindow createdAt expiresAt

variable (P : Primitives)

def id (intent : LeaveIntent) : LeaveIntentId := ⟨P.hash intent.canonicalUnsignedBytes⟩

def issue (tableId : TableId) (afterHandNumber : Option UInt64) (membershipVersion : UInt64)
    (createdAtUnixMs expiresAtUnixMs : UInt64) (nonce : FixedBytes 16) (device : DeviceIdentity)
    (certificate : DeviceCertificate) : Except TableSessionProtocolError LeaveIntent := do
  validateFields afterHandNumber createdAtUnixMs expiresAtUnixMs
  ensure (certificate.devicePublicKey = device.publicKey P) .leaveIntentIdentityMismatch
  let unsigned : LeaveIntent :=
    { version := 1, tableId, afterHandNumber, membershipVersion,
      playerId := certificate.playerId, devicePublicKey := certificate.devicePublicKey,
      createdAtUnixMs, expiresAtUnixMs, nonce,
      attestation := ⟨certificate, FixedBytes.ofNat 0, FixedBytes.ofNat 0⟩ }
  let attestation ← (DeviceAttestation.issue P leaveIntentDomain unsigned.canonicalUnsignedBytes
    createdAtUnixMs device certificate).mapError .attestation
  return { unsigned with attestation }

/-- An intent names the hand it was issued for. -/
theorem afterHandNumber_of_issue {tableId : TableId} {afterHandNumber : Option UInt64}
    {membershipVersion createdAtUnixMs expiresAtUnixMs : UInt64} {nonce : FixedBytes 16}
    {device : DeviceIdentity} {certificate : DeviceCertificate} {intent : LeaveIntent}
    (h : issue P tableId afterHandNumber membershipVersion createdAtUnixMs expiresAtUnixMs nonce
      device certificate = .ok intent) : intent.afterHandNumber = afterHandNumber := by
  unfold issue at h
  rw [unit_bind_eq_ok, ensure_bind_eq_ok] at h
  obtain ⟨_, -, h⟩ := bind_eq_ok.mp h.2.2
  cases h
  rfl

def verifyAt (intent : LeaveIntent) (now : UInt64) : Except TableSessionProtocolError Unit := do
  ensure (intent.version = 1) (.unsupportedLeaveIntentVersion intent.version)
  validateFields intent.afterHandNumber intent.createdAtUnixMs intent.expiresAtUnixMs
  ensure (isSignedTimeWindowActive intent.createdAtUnixMs intent.expiresAtUnixMs now)
    .leaveIntentExpired
  ensure (intent.attestation.certificate.playerId = intent.playerId ∧
    intent.attestation.certificate.devicePublicKey = intent.devicePublicKey)
    .leaveIntentIdentityMismatch
  (intent.attestation.verify P leaveIntentDomain intent.canonicalUnsignedBytes now).mapError
    .attestation

end LeaveIntent

end TokenHoldem
