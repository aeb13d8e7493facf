import TokenHoldem.Network.TablePool

/-!
# Friend room invites

`token-holdem-network/src/room.rs`: the host of a private table hands out a
signed invite with the table's level and the endpoint to join it at. Whoever
knows the room secret knows the room.
-/

namespace TokenHoldem

open Library

inductive FriendRoomInviteError where
  | attestation (error : DeviceAttestationError)
  | unsupportedVersion (version : UInt8)
  | invalidSecret
  | invalidPeerId
  | invalidAddresses
  | addressPeerIdMismatch
  | invalidPlayerRange
  | invalidValidityWindow
  | expired
  | roomIdMismatch
  | identityMismatch

structure FriendRoomInvite where
  version : UInt8
  roomId : TableId
  roomSecret : Bytes32
  hostPlayerId : PlayerId
  hostDevicePublicKey : DevicePublicKey
  hostSessionPeerId : Bytes
  hostSessionAddresses : List Bytes
  level : StakeLevel
  createdAtUnixMs : UInt64
  expiresAtUnixMs : UInt64
  attestation : DeviceAttestation

def friendRoomDomain : Bytes := textBytes "token-holdem/friend-room-invite/v3\x00"

def roomIdDomain : Bytes := textBytes "token-holdem/friend-room-id/v3\x00"

def friendRoomVersion : UInt8 := 3

/-- The longest an invite is valid: 24 hours. -/
def maxInviteLifetimeMs : UInt64 := 86400000

def deriveRoomId (P : Primitives) (secret : Bytes32) : TableId :=
  ⟨P.hash (roomIdDomain ++ secret.toBytes)⟩

namespace FriendRoomInvite

/-- `canonical_invite_bytes`. -/
def canonicalUnsignedBytes (invite : FriendRoomInvite) : Bytes :=
  friendRoomDomain ++ [invite.version] ++ invite.roomId.asBytes ++ invite.roomSecret.toBytes
    ++ invite.hostPlayerId.asBytes ++ invite.hostDevicePublicKey.asBytes
    ++ writeBytes invite.hostSessionPeerId ++ writeAddresses invite.hostSessionAddresses
    ++ levelBytes invite.level ++ u64Bytes invite.createdAtUnixMs
    ++ u64Bytes invite.expiresAtUnixMs

variable (P : Primitives)

variable (invite : FriendRoomInvite)

/-- The `match` of `validate_fields` on the endpoint. -/
def validateEndpoint : Except FriendRoomInviteError Unit :=
  match validateSessionEndpoint P invite.hostSessionPeerId invite.hostSessionAddresses with
  | .ok _ => .ok ()
  | .error .addressPeerIdMismatch => .error .addressPeerIdMismatch
  | .error .invalidPeerId => .error .invalidPeerId
  | .error .invalidAddresses => .error .invalidAddresses

def validateFields : Except FriendRoomInviteError Unit := do
  ensure (invite.roomSecret.val ≠ 0) .invalidSecret
  invite.validateEndpoint P
  ensure (invite.level.minimumPlayers = 2 ∧ invite.level.maximumPlayers = 6) .invalidPlayerRange
  ensure (lifetimeWithin invite.createdAtUnixMs invite.expiresAtUnixMs maxInviteLifetimeMs)
    .invalidValidityWindow

def issue (roomSecret : Bytes32) (hostSessionPeerId : Bytes) (hostSessionAddresses : List Bytes)
    (level : StakeLevel) (createdAtUnixMs expiresAtUnixMs : UInt64) (device : DeviceIdentity)
    (certificate : DeviceCertificate) : Except FriendRoomInviteError FriendRoomInvite := do
  let unsigned : FriendRoomInvite :=
    { version := friendRoomVersion, roomId := deriveRoomId P roomSecret, roomSecret,
      hostPlayerId := certificate.playerId, hostDevicePublicKey := certificate.devicePublicKey,
      hostSessionPeerId, hostSessionAddresses, level, createdAtUnixMs, expiresAtUnixMs,
      attestation := ⟨certificate, FixedBytes.ofNat 0, FixedBytes.ofNat 0⟩ }
  unsigned.validateFields P
  let attestation ← (DeviceAttestation.issue P friendRoomDomain unsigned.canonicalUnsignedBytes
    createdAtUnixMs device certificate).mapError .attestation
  return { unsigned with attestation }

def verifyAt (now : UInt64) : Except FriendRoomInviteError Unit := do
  ensure (invite.version = friendRoomVersion) (.unsupportedVersion invite.version)
  invite.validateFields P
  ensure (isSignedTimeWindowActive invite.createdAtUnixMs invite.expiresAtUnixMs now) .expired
  ensure (deriveRoomId P invite.roomSecret = invite.roomId) .roomIdMismatch
  ensure (invite.attestation.certificate.playerId = invite.hostPlayerId ∧
    invite.attestation.certificate.devicePublicKey = invite.hostDevicePublicKey) .identityMismatch
  (invite.attestation.verify P friendRoomDomain invite.canonicalUnsignedBytes now).mapError
    .attestation

end FriendRoomInvite

end TokenHoldem
