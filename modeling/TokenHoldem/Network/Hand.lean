import TokenHoldem.Domain.Hand
import TokenHoldem.Identity.Attestation
import TokenHoldem.Identity.ReceiptSignature
import TokenHoldem.MentalPoker.Engine

/-!
# Messages of a hand

`token-holdem-network/src/hand.rs`. Every message names the hand it belongs to
(`HandScope`); an action is signed by the device of the player who takes it.

The number of an action in its hand is a natural number here: a hand is over
long before a `u64` would overflow.

- `verifyFor_eq_ok`: what a verified action binds.
-/

namespace TokenHoldem

open Library

/-- The fields `table_id`, `hand_number` and `roster_hash` that all messages have. -/
structure HandScope where
  tableId : TableId
  handNumber : UInt64
  rosterHash : Bytes32
deriving DecidableEq

/-! ## Signed actions -/

structure SignedHandAction where
  version : UInt8
  scope : HandScope
  expectedSequence : Nat
  expectedPublicStateHash : Bytes32
  seat : UInt8
  playerId : PlayerId
  action : PlayerAction
  issuedAtUnixMs : UInt64
  attestation : DeviceAttestation
deriving DecidableEq

inductive SignedHandActionError where
  | attestation (error : DeviceAttestationError)
  | unsupportedVersion (version : UInt8)
  | wrongHand
  | wrongRoster
  | wrongSequence (expected actual : Nat)
  | wrongPublicStateHash
  | invalidSeat
  | identityMismatch
deriving DecidableEq

def handActionDomain : Bytes := textBytes "token-holdem/hand-action/v3\x00"

/-- The bytes of the action itself in `canonical_action_bytes`. -/
def playerActionBytes : PlayerAction → Bytes
  | .fold => [0]
  | .check => [1]
  | .call => [2]
  | .raiseTo target => 3 :: target.toBytes

def canonicalActionBytes (version : UInt8) (scope : HandScope) (expectedSequence : Nat)
    (expectedPublicStateHash : Bytes32) (seat : UInt8) (playerId : PlayerId)
    (action : PlayerAction) (issuedAtUnixMs : UInt64) : Bytes :=
  handActionDomain ++ [version] ++ scope.tableId.asBytes ++ u64Bytes scope.handNumber
    ++ scope.rosterHash.toBytes ++ beBytes 8 expectedSequence ++ expectedPublicStateHash.toBytes
    ++ [seat] ++ playerId.asBytes ++ playerActionBytes action ++ u64Bytes issuedAtUnixMs

namespace SignedHandAction

variable (P : Primitives)

def canonicalUnsignedBytes (signed : SignedHandAction) : Bytes :=
  canonicalActionBytes signed.version signed.scope signed.expectedSequence
    signed.expectedPublicStateHash signed.seat signed.playerId signed.action signed.issuedAtUnixMs

def payloadHash (signed : SignedHandAction) : Bytes32 := signed.attestation.payloadHash

def issue (scope : HandScope) (expectedSequence : Nat) (expectedPublicStateHash : Bytes32)
    (seat : UInt8) (action : PlayerAction) (issuedAtUnixMs : UInt64) (device : DeviceIdentity)
    (certificate : DeviceCertificate) : Except SignedHandActionError SignedHandAction := do
  ensure (seat ≠ 0) .invalidSeat
  let playerId := certificate.playerId
  let unsigned := canonicalActionBytes 3 scope expectedSequence expectedPublicStateHash seat
    playerId action issuedAtUnixMs
  let attestation ← (DeviceAttestation.issue P handActionDomain unsigned issuedAtUnixMs device
    certificate).mapError .attestation
  return { version := 3, scope, expectedSequence, expectedPublicStateHash, seat, playerId, action,
           issuedAtUnixMs, attestation }

/-- `SignedHandAction::verify_for`. The signing time is bound by the signature but
compared with nothing. -/
def verifyFor (signed : SignedHandAction) (scope : HandScope) (expectedSequence : Nat)
    (expectedPublicStateHash : Bytes32) (seat : UInt8) (playerId : PlayerId)
    (devicePublicKey : DevicePublicKey) (now : UInt64) : Except SignedHandActionError Unit := do
  ensure (signed.version = 3) (.unsupportedVersion signed.version)
  ensure (signed.scope.tableId = scope.tableId ∧ signed.scope.handNumber = scope.handNumber)
    .wrongHand
  ensure (signed.scope.rosterHash = scope.rosterHash) .wrongRoster
  ensure (signed.expectedSequence = expectedSequence)
    (.wrongSequence expectedSequence signed.expectedSequence)
  ensure (signed.expectedPublicStateHash = expectedPublicStateHash) .wrongPublicStateHash
  ensure (signed.seat ≠ 0 ∧ signed.seat = seat) .invalidSeat
  let certificate := signed.attestation.certificate
  ensure (signed.playerId = playerId ∧ certificate.playerId = playerId ∧
    certificate.devicePublicKey = devicePublicKey) .identityMismatch
  (signed.attestation.verify P handActionDomain signed.canonicalUnsignedBytes now).mapError
    .attestation

variable {P}

/-- A verified action is bound to the state it was checked against. -/
theorem verifyFor_eq_ok {signed : SignedHandAction} {scope : HandScope} {expectedSequence : Nat}
    {expectedPublicStateHash : Bytes32} {seat : UInt8} {playerId : PlayerId}
    {devicePublicKey : DevicePublicKey} {now : UInt64}
    (h : signed.verifyFor P scope expectedSequence expectedPublicStateHash seat playerId
      devicePublicKey now = .ok ()) : signed.expectedSequence = expectedSequence ∧
      signed.expectedPublicStateHash = expectedPublicStateHash ∧ signed.playerId = playerId := by
  unfold verifyFor at h
  obtain ⟨-, h⟩ := ensure_bind_eq_ok.mp h
  obtain ⟨-, h⟩ := ensure_bind_eq_ok.mp h
  obtain ⟨-, h⟩ := ensure_bind_eq_ok.mp h
  obtain ⟨hsequence, h⟩ := ensure_bind_eq_ok.mp h
  obtain ⟨hstate, h⟩ := ensure_bind_eq_ok.mp h
  obtain ⟨-, h⟩ := ensure_bind_eq_ok.mp h
  obtain ⟨hidentity, -⟩ := ensure_bind_eq_ok.mp h
  exact ⟨hsequence, hstate, hidentity.1⟩

end SignedHandAction

/-! ## Messages -/

inductive HandPublicMessage where
  | keyAnnouncement (scope : HandScope) (seat : UInt8) (announcement : KeyAnnouncement)
  | shuffle (scope : HandScope) (seat : UInt8) (packet : ShufflePacket)
  | communityRevealShare (scope : HandScope) (seat cardIndex : UInt8) (packet : RevealSharePacket)
  | dealReady (scope : HandScope) (seat : UInt8)
  | receiptSignature (scope : HandScope) (receipt : HandReceipt) (signature : ParticipantSignature)
  | actionCommitted (scope : HandScope) (sequence : Nat) (action : SignedHandAction)
deriving DecidableEq

/-- The scope of a message: `table_id`, `hand_number` and `roster_hash`. -/
def HandPublicMessage.scope : HandPublicMessage → HandScope
  | .keyAnnouncement scope _ _ => scope
  | .shuffle scope _ _ => scope
  | .communityRevealShare scope _ _ _ => scope
  | .dealReady scope _ => scope
  | .receiptSignature scope _ _ => scope
  | .actionCommitted scope _ _ => scope

/-- `HandPrivateMessage::HoleRevealShare`, the only private message. -/
structure HandPrivateMessage where
  scope : HandScope
  fromSeat : UInt8
  toSeat : UInt8
  cardIndex : UInt8
  packet : RevealSharePacket
deriving DecidableEq

end TokenHoldem
