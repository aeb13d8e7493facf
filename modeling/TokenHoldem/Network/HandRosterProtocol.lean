import TokenHoldem.Domain.HandRoster
import TokenHoldem.Network.MembershipProposal

/-!
# Hand roster proposals and acceptances

`token-holdem-network/src/hand_roster_protocol.rs`. Before each hand the
coordinator proposes the roster of the hand, and every participant accepts it.
-/

namespace TokenHoldem

open Library List

inductive HandRosterProtocolError where
  | unsupportedRosterProposalVersion (version : UInt8)
  | unsupportedSignedRosterProposalVersion (version : UInt8)
  | unsupportedRosterAcceptanceVersion (version : UInt8)
  | wrongMembershipProposal
  | rosterDoesNotFreezeAllMembers
  | rosterPlayerMissingFromMembership
  | rosterMemberMismatch
  | endpointCountMismatch
  | endpointIdentityMismatch
  | rosterProposalHashMismatch
  | missingCoordinator
  | unauthorizedCoordinator
  | claimNotInRoster (claimId : JoinClaimId)
  | acceptanceProposalMismatch
  | acceptancePlayerMismatch
  | acceptanceDeviceMismatch
  | acceptanceCertificateMismatch
  | acceptanceSignerMismatch
  | acceptanceOutsideValidityWindow
  | duplicateAcceptance
  | incompleteAcceptances
  | session (error : TableSessionProtocolError)
  | domain (error : HandRosterError)
  | attestation (error : DeviceAttestationError)
deriving DecidableEq

/-- Where a player of the roster is reached. -/
structure RosterEndpoint where
  handIndex : UInt8
  claimId : JoinClaimId
  playerId : PlayerId
  devicePublicKey : DevicePublicKey
  sessionPeerId : Bytes
  sessionAddresses : List Bytes
deriving DecidableEq

/-- A roster with the endpoints of its players. -/
structure HandRosterProposal where
  version : UInt8
  readyRoster : ReadyHandRoster
  membershipProposalHash : Bytes32
  endpoints : List RosterEndpoint
  proposalHash : Bytes32
deriving DecidableEq

def handRosterProposalDomain : Bytes := textBytes "token-holdem/hand-roster-proposal/v1\x00"

/-- The roster freezes all members, with seats and buy-ins. -/
def validateRosterMembership (roster : ReadyHandRoster) (membership : SignedMembershipProposal) :
    Except HandRosterProtocolError Unit := do
  let proposal := membership.proposal
  ensure (roster.tableId = proposal.tableId ∧
    roster.membershipVersion = proposal.membershipVersion) .wrongMembershipProposal
  ensure (roster.seats.length = proposal.seats.length) .rosterDoesNotFreezeAllMembers
  checkAll (fun rosterSeat => do
    let membershipSeat ← okOr .rosterPlayerMissingFromMembership
      (proposal.seatByPlayer rosterSeat.playerId)
    let member := membershipSeat.asMember
    ensure (rosterSeat.physicalSeat = member.physicalSeat ∧
      rosterSeat.devicePublicKey = member.devicePublicKey ∧
      rosterSeat.buyIn = member.buyIn) .rosterMemberMismatch) roster.seats

namespace HandRosterProposal

def endpointForPlayer (proposal : HandRosterProposal) (playerId : PlayerId) :
    Option RosterEndpoint :=
  proposal.endpoints.find? fun endpoint => endpoint.playerId = playerId

/-- `endpoints().iter().find(|endpoint| endpoint.claim_id() == claim_id)`. -/
def endpointForClaim (proposal : HandRosterProposal) (claimId : JoinClaimId) :
    Option RosterEndpoint :=
  proposal.endpoints.find? fun endpoint => endpoint.claimId = claimId

/-- The bytes of the proposal hash. -/
def canonicalUnsignedBytes (proposal : HandRosterProposal) : Bytes :=
  handRosterProposalDomain ++ [proposal.version] ++ proposal.readyRoster.rosterHash.toBytes
    ++ proposal.membershipProposalHash.toBytes ++ [UInt8.ofNat proposal.endpoints.length]
    ++ proposal.endpoints.flatMap fun endpoint =>
      [endpoint.handIndex] ++ endpoint.claimId.asBytes ++ endpoint.playerId.asBytes
        ++ endpoint.devicePublicKey.asBytes ++ writeBytes endpoint.sessionPeerId
        ++ writeAddresses endpoint.sessionAddresses

variable (P : Primitives)

/-- `RosterEndpoint::from_seat`. -/
def endpointFromSeat (handIndex : UInt8) (seat : MembershipSeatClaim) : RosterEndpoint :=
  { handIndex, claimId := seat.joinIntent.claimId P, playerId := seat.joinIntent.playerId,
    devicePublicKey := seat.joinIntent.devicePublicKey,
    sessionPeerId := seat.joinIntent.ticket.sessionPeerId,
    sessionAddresses := seat.joinIntent.ticket.sessionAddresses }

/-- Every seat has the endpoint of its member. -/
def validateContents (proposal : HandRosterProposal) (membership : SignedMembershipProposal) :
    Except HandRosterProtocolError Unit := do
  ensure (proposal.membershipProposalHash = membership.proposal.proposalHash)
    .wrongMembershipProposal
  validateRosterMembership proposal.readyRoster membership
  ensure (proposal.endpoints.length = proposal.readyRoster.seats.length) .endpointCountMismatch
  checkAll (fun pair => do
    let (rosterSeat, endpoint) := pair
    ensure (endpoint.handIndex = rosterSeat.handIndex ∧
      endpoint.playerId = rosterSeat.playerId ∧
      endpoint.devicePublicKey = rosterSeat.devicePublicKey) .endpointIdentityMismatch
    let membershipSeat ← okOr .rosterPlayerMissingFromMembership
      (membership.proposal.seatByPlayer endpoint.playerId)
    let intent := membershipSeat.joinIntent
    ensure (endpoint.claimId = intent.claimId P ∧
      endpoint.sessionPeerId = intent.ticket.sessionPeerId ∧
      endpoint.sessionAddresses = intent.ticket.sessionAddresses) .endpointIdentityMismatch)
    (proposal.readyRoster.seats.zip proposal.endpoints)

def assemble (readyRoster : ReadyHandRoster) (membership : SignedMembershipProposal)
    (now : UInt64) : Except HandRosterProtocolError HandRosterProposal := do
  (membership.verifyAt P now).mapError .session
  (readyRoster.verify P).mapError .domain
  validateRosterMembership readyRoster membership
  let endpoints ← readyRoster.seats.mapM fun rosterSeat => do
    let membershipSeat ← okOr HandRosterProtocolError.rosterPlayerMissingFromMembership
      (membership.proposal.seatByPlayer rosterSeat.playerId)
    return endpointFromSeat P rosterSeat.handIndex membershipSeat
  let proposal : HandRosterProposal :=
    { version := 1, readyRoster, membershipProposalHash := membership.proposal.proposalHash,
      endpoints, proposalHash := FixedBytes.ofNat 0 }
  proposal.validateContents P membership
  return { proposal with proposalHash := P.hash proposal.canonicalUnsignedBytes }

def verify (proposal : HandRosterProposal) (membership : SignedMembershipProposal) :
    Except HandRosterProtocolError Unit := do
  ensure (proposal.version = 1) (.unsupportedRosterProposalVersion proposal.version)
  (proposal.readyRoster.verify P).mapError .domain
  proposal.validateContents P membership
  ensure (P.hash proposal.canonicalUnsignedBytes = proposal.proposalHash)
    .rosterProposalHashMismatch

variable {P}

variable {roster : ReadyHandRoster} {membership : SignedMembershipProposal}
  {proposal : HandRosterProposal}

/-- A roster that freezes a membership has its seats, in any order. -/
theorem validateRosterMembership_eq_ok (h : validateRosterMembership roster membership = .ok ()) :
    roster.tableId = membership.proposal.tableId ∧
      roster.membershipVersion = membership.proposal.membershipVersion ∧
      roster.seats.length = membership.proposal.seats.length ∧ ∀ rosterSeat ∈ roster.seats, ∃ seat,
        membership.proposal.seatByPlayer rosterSeat.playerId = some seat ∧
          rosterSeat.physicalSeat = seat.physicalSeat ∧
          rosterSeat.devicePublicKey = seat.joinIntent.devicePublicKey ∧
          rosterSeat.buyIn = seat.joinIntent.ticket.requestedBuyIn := by
  unfold validateRosterMembership at h
  obtain ⟨⟨htable, hversion⟩, h⟩ := ensure_bind_eq_ok.mp h
  obtain ⟨hlength, h⟩ := ensure_bind_eq_ok.mp h
  refine ⟨htable, hversion, hlength, fun rosterSeat hseat => ?_⟩
  obtain ⟨seat, hfound, hmatch⟩ := okOr_bind_eq_ok.mp (checkAll_eq_ok.mp h rosterSeat hseat)
  exact ⟨seat, hfound, ensure_eq_ok.mp hmatch⟩

/-- As many distinct players as there are seats fill all the seats. -/
theorem exists_rosterSeat (valid : ReadyHandRoster.validate roster = .ok ())
    (h : validateRosterMembership roster membership = .ok ()) {seat : MembershipSeatClaim}
    (hseat : seat ∈ membership.proposal.seats) :
    ∃ rosterSeat ∈ roster.seats, rosterSeat.playerId = seat.joinIntent.playerId := by
  obtain ⟨-, -, hlength, hfrozen⟩ := validateRosterMembership_eq_ok h
  have hnodup := ReadyHandRoster.nodup_players_of_validate valid
  have hsubset : roster.seats.map HandRosterSeat.playerId ⊆
      membership.proposal.seats.map fun seat => seat.joinIntent.playerId := by
    intro player hplayer
    obtain ⟨rosterSeat, hmem, rfl⟩ := mem_map.mp hplayer
    obtain ⟨found, hfound, -⟩ := hfrozen rosterSeat hmem
    obtain ⟨hin, hplayer⟩ := MembershipProposal.seatByPlayer_eq_some hfound
    exact mem_map.mpr ⟨found, hin, hplayer⟩
  have hperm := (subperm_of_subset hnodup hsubset).perm_of_length_le (by simp [hlength])
  exact mem_map.mp (hperm.mem_iff.mpr (mem_map.mpr ⟨seat, hseat, rfl⟩))

/-- An endpoint of a validated roster stands beside a seat of the roster and is
the endpoint of the seat of the membership with the same player. -/
structure EndpointOf (P : Primitives) (proposal : HandRosterProposal)
    (membership : SignedMembershipProposal) (rosterSeat : HandRosterSeat)
    (endpoint : RosterEndpoint) (seat : MembershipSeatClaim) : Prop where
  rosterSeat_mem : rosterSeat ∈ proposal.readyRoster.seats
  endpoint_mem : endpoint ∈ proposal.endpoints
  found : membership.proposal.seatByPlayer rosterSeat.playerId = some seat
  handIndex : endpoint.handIndex = rosterSeat.handIndex
  player : endpoint.playerId = rosterSeat.playerId
  device : endpoint.devicePublicKey = seat.joinIntent.devicePublicKey
  claim : endpoint.claimId = seat.joinIntent.claimId P
  peerId : endpoint.sessionPeerId = seat.joinIntent.ticket.sessionPeerId
  addresses : endpoint.sessionAddresses = seat.joinIntent.ticket.sessionAddresses

section

variable {proposal : HandRosterProposal} {membership : SignedMembershipProposal}
  (h : proposal.validateContents P membership = .ok ())

include h

theorem validateContents_membership :
    validateRosterMembership proposal.readyRoster membership = .ok () ∧
      proposal.endpoints.length = proposal.readyRoster.seats.length := by
  unfold validateContents at h
  obtain ⟨-, h⟩ := ensure_bind_eq_ok.mp h
  obtain ⟨hmembership, h⟩ := unit_bind_eq_ok.mp h
  exact ⟨hmembership, (ensure_bind_eq_ok.mp h).1⟩

/-- Seats and endpoints agree in order. -/
theorem validateContents_pair {i : Nat} (hseat : i < proposal.readyRoster.seats.length)
    (hendpoint : i < proposal.endpoints.length) :
    ∃ seat, EndpointOf P proposal membership proposal.readyRoster.seats[i] proposal.endpoints[i]
      seat := by
  obtain ⟨hmembership, -⟩ := validateContents_membership h
  unfold validateContents at h
  obtain ⟨-, h⟩ := ensure_bind_eq_ok.mp h
  obtain ⟨-, h⟩ := unit_bind_eq_ok.mp h
  obtain ⟨-, h⟩ := ensure_bind_eq_ok.mp h
  have hpair := checkAll_eq_ok.mp h (proposal.readyRoster.seats[i], proposal.endpoints[i])
    (mem_iff_getElem.mpr ⟨i, by simp [hseat, hendpoint], by simp⟩)
  obtain ⟨⟨hindex, hplayer, hdevice⟩, hpair⟩ := ensure_bind_eq_ok.mp hpair
  obtain ⟨seat, hfound, hpair⟩ := okOr_bind_eq_ok.mp hpair
  obtain ⟨hclaim, hpeer, haddresses⟩ := ensure_eq_ok.mp hpair
  rw [hplayer] at hfound
  -- the check of the membership found the same seat, with the device of the roster seat
  obtain ⟨member, hmember, -, hmemberDevice, -⟩ :=
    (validateRosterMembership_eq_ok hmembership).2.2.2 _ (getElem_mem hseat)
  have hsame : member = seat := Option.some.inj (hmember.symm.trans hfound)
  subst hsame
  exact ⟨member, getElem_mem hseat, getElem_mem hendpoint, hfound, hindex, hplayer,
    hdevice.trans hmemberDevice, hclaim, hpeer, haddresses⟩

/-- Every seat has an endpoint. -/
theorem endpointOf_of_rosterSeat {rosterSeat : HandRosterSeat}
    (hseat : rosterSeat ∈ proposal.readyRoster.seats) :
    ∃ endpoint seat, EndpointOf P proposal membership rosterSeat endpoint seat := by
  obtain ⟨i, hi, rfl⟩ := mem_iff_getElem.mp hseat
  have hlength := (validateContents_membership h).2
  obtain ⟨seat, hpair⟩ := validateContents_pair h hi (hlength ▸ hi)
  exact ⟨_, seat, hpair⟩

/-- Every endpoint has a seat. -/
theorem endpointOf_of_endpoint {endpoint : RosterEndpoint}
    (hendpoint : endpoint ∈ proposal.endpoints) :
    ∃ rosterSeat seat, EndpointOf P proposal membership rosterSeat endpoint seat := by
  obtain ⟨i, hi, rfl⟩ := mem_iff_getElem.mp hendpoint
  have hlength := (validateContents_membership h).2
  obtain ⟨seat, hpair⟩ := validateContents_pair h (hlength ▸ hi) hi
  exact ⟨_, seat, hpair⟩

end

/-- A verified roster proposal carries its own hash and that of its roster. -/
theorem verify_eq_ok (h : proposal.verify P membership = .ok ()) :
    P.hash proposal.readyRoster.canonicalBytes = proposal.readyRoster.rosterHash ∧
      P.hash proposal.canonicalUnsignedBytes = proposal.proposalHash ∧
      proposal.validateContents P membership = .ok () := by
  unfold verify at h
  obtain ⟨-, h⟩ := ensure_bind_eq_ok.mp h
  obtain ⟨hroster, h⟩ := unit_bind_eq_ok.mp h
  obtain ⟨hcontents, h⟩ := unit_bind_eq_ok.mp h
  rw [mapError_eq_ok_iff, ReadyHandRoster.verify] at hroster
  exact ⟨ensure_eq_ok.mp (unit_bind_eq_ok.mp hroster).2, ensure_eq_ok.mp h, hcontents⟩

/-- A verified roster is valid. -/
theorem validate_of_verify (h : proposal.verify P membership = .ok ()) :
    ReadyHandRoster.validate proposal.readyRoster = .ok () := by
  unfold verify at h
  obtain ⟨-, h⟩ := ensure_bind_eq_ok.mp h
  obtain ⟨hroster, -⟩ := unit_bind_eq_ok.mp h
  rw [mapError_eq_ok_iff, ReadyHandRoster.verify] at hroster
  exact (unit_bind_eq_ok.mp hroster).1

theorem assemble_eq_ok {readyRoster : ReadyHandRoster} {now : UInt64}
    (h : assemble P readyRoster membership now = .ok proposal) :
    proposal.readyRoster = readyRoster := by
  unfold assemble at h
  obtain ⟨-, h⟩ := unit_bind_eq_ok.mp h
  obtain ⟨-, h⟩ := unit_bind_eq_ok.mp h
  obtain ⟨-, h⟩ := unit_bind_eq_ok.mp h
  obtain ⟨endpoints, -, h⟩ := bind_eq_ok.mp h
  cases (unit_bind_eq_ok.mp h).2
  rfl

end HandRosterProposal

/-! ## Signed proposals -/

/-- A proposal that the coordinator has signed. -/
structure SignedHandRosterProposal where
  version : UInt8
  proposal : HandRosterProposal
  membership : SignedMembershipProposal
  coordinatorClaimId : JoinClaimId
  attestation : DeviceAttestation
deriving DecidableEq

def canonicalSignedRosterBytes (version : UInt8) (proposalHash : Bytes32)
    (coordinatorClaimId : JoinClaimId) : Bytes :=
  handRosterProposalDomain ++ [version] ++ proposalHash.toBytes ++ coordinatorClaimId.asBytes

namespace SignedHandRosterProposal

/-- `proposal().ready_roster().hand_number()`. -/
def handNumber (signed : SignedHandRosterProposal) : UInt64 :=
  signed.proposal.readyRoster.handNumber

variable (P : Primitives)

def issue (proposal : HandRosterProposal) (membership : SignedMembershipProposal) (now : UInt64)
    (device : DeviceIdentity) (certificate : DeviceCertificate) :
    Except HandRosterProtocolError SignedHandRosterProposal := do
  (membership.verifyAt P now).mapError .session
  proposal.verify P membership
  let coordinatorClaimId ← okOr .missingCoordinator (membership.proposal.coordinatorClaimId P)
  let coordinator ← okOr .missingCoordinator
    (membership.proposal.seatByClaimId P coordinatorClaimId)
  -- `validate_intent_signer`
  ensure (coordinator.joinIntent.validateSigner P device certificate) .acceptanceSignerMismatch
  let attestation ← (DeviceAttestation.issue P handRosterProposalDomain
    (canonicalSignedRosterBytes 1 proposal.proposalHash coordinatorClaimId) now device
    certificate).mapError .attestation
  return { version := 1, proposal, membership, coordinatorClaimId, attestation }

def verifyAt (signed : SignedHandRosterProposal) (now : UInt64) :
    Except HandRosterProtocolError Unit := do
  ensure (signed.version = 1) (.unsupportedSignedRosterProposalVersion signed.version)
  (signed.membership.verifyAt P now).mapError .session
  signed.proposal.verify P signed.membership
  ensure (signed.membership.proposal.coordinatorClaimId P = some signed.coordinatorClaimId)
    .unauthorizedCoordinator
  let coordinator ← okOr .missingCoordinator
    (signed.membership.proposal.seatByClaimId P signed.coordinatorClaimId)
  ensure (signed.attestation.certificate.playerId = coordinator.joinIntent.playerId ∧
    signed.attestation.certificate.devicePublicKey = coordinator.joinIntent.devicePublicKey)
    .unauthorizedCoordinator
  (signed.attestation.verify P handRosterProposalDomain
    (canonicalSignedRosterBytes signed.version signed.proposal.proposalHash
      signed.coordinatorClaimId) now).mapError .attestation

variable {P}

variable {now : UInt64} {signed : SignedHandRosterProposal}

theorem issue_eq_ok {proposal : HandRosterProposal} {membership : SignedMembershipProposal}
    {device : DeviceIdentity} {certificate : DeviceCertificate}
    (h : issue P proposal membership now device certificate = .ok signed) :
    signed.proposal = proposal ∧ signed.membership = membership := by
  unfold issue at h
  obtain ⟨-, h⟩ := unit_bind_eq_ok.mp h
  obtain ⟨-, h⟩ := unit_bind_eq_ok.mp h
  obtain ⟨claimId, -, h⟩ := okOr_bind_eq_ok.mp h
  obtain ⟨coordinator, -, h⟩ := okOr_bind_eq_ok.mp h
  obtain ⟨-, h⟩ := ensure_bind_eq_ok.mp h
  obtain ⟨attestation, -, h⟩ := bind_eq_ok.mp h
  cases h
  exact ⟨rfl, rfl⟩

theorem verifyAt_eq_ok (h : signed.verifyAt P now = .ok ()) :
    signed.proposal.verify P signed.membership = .ok () := by
  unfold verifyAt at h
  obtain ⟨-, h⟩ := ensure_bind_eq_ok.mp h
  obtain ⟨-, h⟩ := unit_bind_eq_ok.mp h
  exact (unit_bind_eq_ok.mp h).1

/-- The coordinator of a verified roster is the one of its membership, which is
verified too. -/
theorem coordinator_of_verifyAt (h : signed.verifyAt P now = .ok ()) :
    signed.membership.verifyAt P now = .ok () ∧
      ∃ seat, signed.membership.proposal.seatByClaimId P signed.coordinatorClaimId = some seat := by
  unfold verifyAt at h
  obtain ⟨-, h⟩ := ensure_bind_eq_ok.mp h
  obtain ⟨hmembership, h⟩ := unit_bind_eq_ok.mp h
  obtain ⟨-, h⟩ := unit_bind_eq_ok.mp h
  obtain ⟨-, h⟩ := ensure_bind_eq_ok.mp h
  obtain ⟨seat, hseat, -⟩ := okOr_bind_eq_ok.mp h
  rw [mapError_eq_ok_iff] at hmembership
  exact ⟨hmembership, seat, hseat⟩

end SignedHandRosterProposal

/-! ## Acceptances -/

namespace HandRosterAcceptance

variable (P : Primitives)

/-- The join intent behind an endpoint. -/
def intentForEndpoint (signed : SignedHandRosterProposal) (endpoint : RosterEndpoint) :
    Except HandRosterProtocolError JoinIntent :=
  okOr (.claimNotInRoster endpoint.claimId)
    ((signed.membership.proposal.seatByClaimId P endpoint.claimId).map
      MembershipSeatClaim.joinIntent)

def issue (signed : SignedHandRosterProposal) (claimId : JoinClaimId) (acceptedAtUnixMs : UInt64)
    (device : DeviceIdentity) (certificate : DeviceCertificate) :
    Except HandRosterProtocolError HandRosterAcceptance := do
  signed.verifyAt P acceptedAtUnixMs
  let endpoint ← okOr (.claimNotInRoster claimId) (signed.proposal.endpointForClaim claimId)
  let intent ← intentForEndpoint P signed endpoint
  -- `validate_intent_signer`
  ensure (intent.validateSigner P device certificate) .acceptanceSignerMismatch
  let unsigned : HandRosterAcceptance :=
    { version := 1, proposalHash := signed.proposal.proposalHash, claimId,
      playerId := endpoint.playerId, devicePublicKey := endpoint.devicePublicKey,
      acceptedAtUnixMs, attestation := ⟨certificate, FixedBytes.ofNat 0, FixedBytes.ofNat 0⟩ }
  let attestation ← (DeviceAttestation.issue P (Ballot.domain .roster) unsigned.canonicalBytes
    acceptedAtUnixMs device certificate).mapError .attestation
  return { unsigned with attestation }

def verifyAt (signed : SignedHandRosterProposal) (now : UInt64)
    (acceptance : HandRosterAcceptance) : Except HandRosterProtocolError Unit := do
  ensure (acceptance.version = 1) (.unsupportedRosterAcceptanceVersion acceptance.version)
  signed.verifyAt P now
  ensure (acceptance.proposalHash = signed.proposal.proposalHash) .acceptanceProposalMismatch
  let endpoint ← okOr (.claimNotInRoster acceptance.claimId)
    (signed.proposal.endpointForClaim acceptance.claimId)
  let intent ← intentForEndpoint P signed endpoint
  ensure (acceptance.playerId = endpoint.playerId) .acceptancePlayerMismatch
  ensure (acceptance.devicePublicKey = endpoint.devicePublicKey) .acceptanceDeviceMismatch
  ensure (acceptance.attestation.certificate.playerId = acceptance.playerId ∧
    acceptance.attestation.certificate.devicePublicKey = acceptance.devicePublicKey)
    .acceptanceCertificateMismatch
  ensure (isSignedTimeNotFuture acceptance.acceptedAtUnixMs now ∧
    isSignedTimeBeforeExpiry acceptance.acceptedAtUnixMs intent.expiresAtUnixMs)
    .acceptanceOutsideValidityWindow
  (acceptance.attestation.verify P (Ballot.domain .roster) acceptance.canonicalBytes
    now).mapError .attestation

variable {P}

/-- Only a verified roster is accepted. -/
theorem issue_eq_ok {signed : SignedHandRosterProposal} {claimId : JoinClaimId} {now : UInt64}
    {device : DeviceIdentity} {certificate : DeviceCertificate} {acceptance : HandRosterAcceptance}
    (h : issue P signed claimId now device certificate = .ok acceptance) :
    signed.verifyAt P now = .ok () ∧ acceptance.proposalHash = signed.proposal.proposalHash ∧
      acceptance.attestation.certificate.devicePublicKey = device.publicKey P := by
  unfold issue at h
  obtain ⟨hsigned, h⟩ := unit_bind_eq_ok.mp h
  obtain ⟨endpoint, -, h⟩ := okOr_bind_eq_ok.mp h
  obtain ⟨intent, -, h⟩ := bind_eq_ok.mp h
  obtain ⟨-, h⟩ := ensure_bind_eq_ok.mp h
  obtain ⟨attestation, hissued, h⟩ := bind_eq_ok.mp h
  rw [mapError_eq_ok_iff] at hissued
  obtain ⟨hkey, rfl⟩ := DeviceAttestation.issue_eq_ok hissued
  cases h
  exact ⟨hsigned, rfl, hkey⟩

end HandRosterAcceptance

/-- Every endpoint has accepted, once. -/
def verifyHandRosterAcceptances (P : Primitives) (signed : SignedHandRosterProposal)
    (acceptances : List HandRosterAcceptance) (now : UInt64) :
    Except HandRosterProtocolError Unit := do
  signed.verifyAt P now
  Acceptance.verifyComplete (HandRosterAcceptance.verifyAt P signed now) .duplicateAcceptance
    .incompleteAcceptances (signed.proposal.endpoints.map RosterEndpoint.claimId) acceptances

/-- Every endpoint has accepted. -/
theorem verifyHandRosterAcceptances_eq_ok {P : Primitives} {signed : SignedHandRosterProposal}
    {acceptances : List HandRosterAcceptance} {now : UInt64}
    (h : verifyHandRosterAcceptances P signed acceptances now = .ok ()) :
    signed.verifyAt P now = .ok () ∧
      (∀ a ∈ acceptances, HandRosterAcceptance.verifyAt P signed now a = .ok ()) ∧
      ∀ endpoint ∈ signed.proposal.endpoints, ∃ a ∈ acceptances, a.claimId = endpoint.claimId := by
  unfold verifyHandRosterAcceptances at h
  obtain ⟨hsigned, h⟩ := unit_bind_eq_ok.mp h
  obtain ⟨hverified, hcomplete⟩ := Acceptance.verifyComplete_eq_ok h
  exact ⟨hsigned, hverified, fun endpoint hend => hcomplete _ (mem_map_of_mem hend)⟩

end TokenHoldem
