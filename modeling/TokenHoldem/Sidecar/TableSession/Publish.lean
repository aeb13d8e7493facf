import TokenHoldem.Sidecar.TableSession.Roster

/-!
# What a session sends

The part of `table_session_runtime.rs` that talks to the swarm. Of the swarm only
what comes back is modelled: which peers the session keeps connections to and
which messages it sends. When a message is sent again, and over which transport,
decides nothing here, so the delivery bookkeeping is left out.
-/

namespace TokenHoldem

open Library SessionM

/-- `SESSION_MESSAGE_REPUBLISH_INTERVAL`, in milliseconds. -/
def sessionMessageRepublishInterval : Nat := 1000

/-! ## Recipients -/

variable (P : Primitives)

def directRoomRecipient (rawPeerId : Bytes) (rawAddresses : List Bytes) :
    Except SessionError DirectRoomRecipient := do
  let peerId ← okOr (.context "牌桌共识参与者 PeerId 无效" .libp2p) (P.peerIdFromBytes rawPeerId)
  let addresses ← rawAddresses.mapM fun raw =>
    (peerDialAddress P raw peerId).mapError (.context "牌桌共识参与者拨号地址无效")
  let address ← okOr (.message "牌桌共识参与者没有可用的拨号地址") (preferredDialAddress addresses)
  return ⟨peerId, [address]⟩

def membershipRecipients (proposal : MembershipProposal) :
    Except SessionError (List DirectRoomRecipient) :=
  (proposal.seats.map MembershipSeatClaim.joinIntent ++ proposal.waiting).mapM fun intent =>
    directRoomRecipient P intent.ticket.sessionPeerId intent.ticket.sessionAddresses

def rosterRecipients (proposal : HandRosterProposal) :
    Except SessionError (List DirectRoomRecipient) :=
  proposal.endpoints.mapM fun endpoint =>
    directRoomRecipient P endpoint.sessionPeerId endpoint.sessionAddresses

/-- The peers `synchronize_explicit_session_peers` keeps connections to. -/
def desiredPeers (localPeerId : PeerId) (active : ActiveSession) :
    Except SessionError (List PeerId) := do
  let admission :=
    if active.localAdmissionAcknowledged then [] else active.admissionRecipient.toList
  let members ← (active.membership.toList ++ active.pendingMembership.toList).mapM
    fun signed => membershipRecipients P signed.proposal
  return ((admission ++ members.flatten).map DirectRoomRecipient.peerId).dedup.filter
    (· ≠ localPeerId)

def synchronizeExplicitSessionPeers (localPeerId : PeerId) : SessionM Unit := do
  let active ← getActive
  if active.ownsExplicitPeers = false then pure () else
  let desired ← lift id (desiredPeers P localPeerId active)
  update fun active => { active with
    explicitPeers := desired
    disconnectedExplicitPeers := active.disconnectedExplicitPeers.filter fun peerId _ =>
      ¬ (peerId ∈ active.explicitPeers ∧ peerId ∉ desired) }

/-! ## Publishing -/

def localIsMembershipCoordinator (active : ActiveSession) (proposal : MembershipProposal) :
    Except SessionError Bool := do
  let coordinator ← okOr (.message "成员提案缺少协调者") (proposal.coordinatorClaimId P)
  return (proposal.seatByPlayer active.localJoin.playerId).any fun seat =>
    seat.joinIntent.claimId P = coordinator

variable (active : ActiveSession)

variable (signed : SignedHandRosterProposal)

def localIsRosterCoordinator : Bool :=
  (signed.proposal.endpointForPlayer active.localJoin.playerId).map RosterEndpoint.claimId
    = some signed.coordinatorClaimId

def membershipProposalForLocalAcceptance : Option SignedMembershipProposal := do
  let acceptance ← active.localMembershipAcceptance
  (active.pendingMembership.toList ++
    (active.membershipCertificate.map CertifiedMembership.proposal).toList).find? fun signed =>
      signed.proposal.proposalHash = acceptance.proposalHash

def rosterProposalForLocalAcceptance : Option SignedHandRosterProposal := do
  let acceptance ← active.localRosterAcceptance
  (active.pendingRoster.toList ++
    (active.rosterCertificate.map CertifiedRoster.proposal).toList).find? fun signed =>
      signed.proposal.proposalHash = acceptance.proposalHash

def membershipCoordinatorRecipient (proposal : MembershipProposal) :
    Except SessionError DirectRoomRecipient := do
  let coordinator ← okOr (.message "成员提案缺少协调者席位")
    ((proposal.coordinatorClaimId P).bind (proposal.seatByClaimId P))
  directRoomRecipient P coordinator.joinIntent.ticket.sessionPeerId
    coordinator.joinIntent.ticket.sessionAddresses

def rosterCoordinatorRecipient : Except SessionError DirectRoomRecipient := do
  let endpoint ← okOr (.message "逐手名单缺少协调者端点")
    (signed.proposal.endpointForClaim signed.coordinatorClaimId)
  directRoomRecipient P endpoint.sessionPeerId endpoint.sessionAddresses

section

variable (P : Primitives)

/-- `deliver_consensus_message`, with the recipients its caller works out. -/
def deliverConsensusMessage (message : RoomWireMessage)
    (recipients : Except SessionError (List DirectRoomRecipient)) : SessionM Unit := do
  let _ ← lift id recipients
  record (.sent message)

/-- `publish_roster_certificate_if_needed`. -/
def publishRosterCertificate : SessionM Unit := do
  let active ← getActive
  match active.rosterCertificate with
  | none => pure ()
  | some certificate =>
    deliverConsensusMessage (.certifiedRoster certificate)
      (if localIsRosterCoordinator active certificate.proposal then
        rosterRecipients P certificate.proposal.proposal else .ok [])

/-- `publish_membership_certificate_if_needed`. -/
def publishMembershipCertificate : SessionM Unit := do
  let active ← getActive
  match active.membershipCertificate with
  | none => pure ()
  | some certificate => do
    let isCoordinator ← lift id
      (localIsMembershipCoordinator P active certificate.proposal.proposal)
    deliverConsensusMessage (.certifiedMembership certificate)
      (if isCoordinator then membershipRecipients P certificate.proposal.proposal else .ok [])

variable (active : ActiveSession)

/-- The recipients of a leave intent: everyone in the membership. -/
def leaveRecipients : Except SessionError (List DirectRoomRecipient) :=
  match active.membership with
  | none => .ok []
  | some membership => membershipRecipients P membership.proposal

def publishLeave : SessionM Unit :=
  match active.localLeave with
  | none => pure ()
  | some leave => deliverConsensusMessage (.leaveIntent leave) (leaveRecipients P active)

def publishMembershipProposal : SessionM Unit :=
  match active.pendingMembership with
  | none => pure ()
  | some signed => do
    let isCoordinator ← lift id (localIsMembershipCoordinator P active signed.proposal)
    if isCoordinator then
      deliverConsensusMessage (.membershipProposal signed) (membershipRecipients P signed.proposal)
    else pure ()

def publishMembershipAcceptance : SessionM Unit :=
  match active.localMembershipAcceptance, membershipProposalForLocalAcceptance active with
  | some acceptance, some signed => do
    let isCoordinator ← lift id (localIsMembershipCoordinator P active signed.proposal)
    deliverConsensusMessage (.membershipAcceptance acceptance)
      (if isCoordinator then .ok []
        else (membershipCoordinatorRecipient P signed.proposal).map fun recipient => [recipient])
  | _, _ => pure ()

def publishRosterProposal : SessionM Unit :=
  match active.pendingRoster with
  | none => pure ()
  | some signed =>
    if localIsRosterCoordinator active signed then
      deliverConsensusMessage (.rosterProposal signed) (rosterRecipients P signed.proposal)
    else pure ()

def publishRosterAcceptance : SessionM Unit :=
  match active.localRosterAcceptance, rosterProposalForLocalAcceptance active with
  | some acceptance, some signed =>
    deliverConsensusMessage (.rosterAcceptance acceptance)
      (if localIsRosterCoordinator active signed then .ok []
        else (rosterCoordinatorRecipient P signed).map fun recipient => [recipient])
  | _, _ => pure ()

def publishActiveMessages (nowMonotonic : Nat) : SessionM Unit := do
  publishRosterCertificate P
  publishMembershipCertificate P
  let active ← getActive
  if ∀ last ∈ active.lastSessionMessagesPublishedAt,
      sessionMessageRepublishInterval ≤ nowMonotonic - last then
    -- to the admission endpoint or to the whole room, it is sent either way
    record (.sent (.joinIntent active.localJoin))
    publishLeave P active
    publishMembershipProposal P active
    publishMembershipAcceptance P active
    publishRosterProposal P active
    publishRosterAcceptance P active
    update fun active => { active with lastSessionMessagesPublishedAt := some nowMonotonic }
  else pure ()

end

end TokenHoldem
