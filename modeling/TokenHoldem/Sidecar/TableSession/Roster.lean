import TokenHoldem.Sidecar.NetworkAddress
import TokenHoldem.Sidecar.TableSession.Membership

/-!
# Agreeing on the roster of a hand

The roster half of `table_session_runtime.rs`. Three seconds after a table with
two players is idle, the coordinator proposes the roster of the next hand; every
participant signs it, and with all signatures the hand starts.
-/

namespace TokenHoldem

open Library SessionM

/-- `HAND_START_DELAY`, in milliseconds. -/
def handStartDelay : Nat := 3000

/-! ## The table handed to the hand -/

variable (P : Primitives)

def peerDialAddress (raw : Bytes) (expected : PeerId) : Except SessionError Multiaddr := do
  let address ← okOr (.context "逐手玩家拨号地址无效" .libp2p) (P.multiaddr raw)
  ensure (address.getLast? = some (.p2p expected))
    (.message "逐手玩家拨号地址没有绑定预期 PeerId")
  ensure (address.dropLast ≠ []) (.message "逐手玩家拨号地址缺少传输端点")
  return address.dropLast

/-- The peer and the dial address of one seat of the roster. -/
def readyPeer (membership : MembershipProposal) (seat : HandRosterSeat) :
    Except SessionError (PeerId × List Multiaddr) := do
  let claim ← okOr (.message "逐手玩家不在成员提案中") (membership.seatByPlayer seat.playerId)
  let peerId ← okOr (.context "逐手玩家 PeerId 无效" .libp2p)
    (P.peerIdFromBytes claim.joinIntent.ticket.sessionPeerId)
  let addresses ← claim.joinIntent.ticket.sessionAddresses.mapM fun raw =>
    peerDialAddress P raw peerId
  let address ← okOr (.message "逐手玩家没有签名拨号地址") (preferredDialAddress addresses)
  return (peerId, [address])

def readyTableFromProposal (signed : SignedHandRosterProposal) (localPlayer : PlayerId) :
    Except SessionError ReadyTable := do
  let roster := signed.proposal.readyRoster
  let membership := signed.membership.proposal
  let seats := sortByKey (fun seat : HandRosterSeat => seat.handIndex.toNat) roster.seats
  let localSeat ← okOr (.message "逐手名单缺少本机玩家")
    (seats.findIdx? fun seat => seat.playerId = localPlayer)
  let dealerIndex ← okOr (.message "逐手名单缺少庄家物理席位")
    (seats.findIdx? fun seat => seat.physicalSeat = roster.dealerSeat)
  let peers ← seats.mapM (readyPeer P membership)
  return { tableId := roster.tableId, rosterHash := signed.proposal.proposalHash,
           handNumber := roster.handNumber, level := membership.level, localSeat, dealerIndex,
           physicalSeats := seats.map fun seat => seat.physicalSeat.value,
           players := seats.map HandRosterSeat.playerId,
           devicePublicKeys := seats.map HandRosterSeat.devicePublicKey,
           peerIds := peers.map Prod.fst, peerAddresses := peers.map Prod.snd,
           buyIns := seats.map HandRosterSeat.buyIn }

/-! ## Checks on what arrives -/

def verifyRosterCertificateSource (source : Option PeerId) (proposal : HandRosterProposal) :
    Except SessionError Unit := do
  let source ← okOr (.message "逐手名单证书缺少源 PeerId") source
  ensure (∃ endpoint ∈ proposal.endpoints, P.peerIdFromBytes endpoint.sessionPeerId = some source)
    (.message "逐手名单证书不是由本手参与者转发")

def validateRosterScope (active : ActiveSession) (signed : SignedHandRosterProposal) :
    Except SessionError Unit := do
  let membership ← okOr (.message "逐手名单到达时成员共识尚未完成") active.membership
  ensure (signed.membership = membership) (.message "逐手名单引用了不同的成员提案")
  let roster := signed.proposal.readyRoster
  ensure (roster.handNumber = active.nextHandNumber ∨
    (active.handClockKnown = false ∧ active.nextHandNumber < roster.handNumber ∧
      roster.previousReceiptHash ≠ none ∧
      (signed.proposal.endpointForPlayer active.localJoin.playerId).isSome))
    (.message "逐手名单手牌编号与房间状态不一致")

/-! ## Proposing, accepting, activating -/

namespace CertifiedRoster

def assemble (P : Primitives) (proposal : SignedHandRosterProposal)
    (acceptances : List HandRosterAcceptance) (now : UInt64) :
    Except HandRosterProtocolError CertifiedRoster := do
  let acceptances := sortByKey Acceptance.claimId acceptances
  verifyHandRosterAcceptances P proposal acceptances now
  return ⟨proposal, acceptances⟩

def verifyAt (P : Primitives) (certificate : CertifiedRoster) (now : UInt64) :
    Except HandRosterProtocolError Unit :=
  verifyHandRosterAcceptances P certificate.proposal certificate.acceptances now

end CertifiedRoster

/-- Whether a roster takes the place of the pending one. -/
def replacesRoster (active : ActiveSession) (signed : SignedHandRosterProposal) : Prop :=
  ∀ current ∈ active.pendingRoster,
    current.handNumber < signed.handNumber ∨
      (signed.handNumber = current.handNumber ∧
        signed.proposal.proposalHash < current.proposal.proposalHash)
deriving Decidable

section

variable (P : Primitives) (device : DeviceIdentity) (certificate : DeviceCertificate)

def acceptRosterProposal (signed : SignedHandRosterProposal) (now : UInt64) : SessionM Unit := do
  let active ← getActive
  match signed.proposal.endpointForPlayer active.localJoin.playerId with
  | none => pure ()
  | some localEndpoint =>
    if replacesRoster active signed then
      let acceptance ← lift .roster (HandRosterAcceptance.issue P signed localEndpoint.claimId now
        device certificate)
      record (.rosterBallot active signed)
      record (.signed (.rosterAcceptance signed acceptance))
      update fun active => { active with
        pendingRoster := some signed
        rosterAcceptances :=
          (∅ : Std.TreeMap JoinClaimId HandRosterAcceptance).insert acceptance.claimId acceptance
        localRosterAcceptance := some acceptance }
    else pure ()

def maybeProposeRoster (now : UInt64) (nowMonotonic : Nat) : SessionM Unit := do
  let active ← getActive
  if active.handActive ∨ active.pendingRoster.isSome ∨ active.pendingMembership.isSome then
    pure ()
  else match active.membership with
  | none => pure ()
  | some membership =>
    if membership.proposal.seats.length < 2 then
      update fun active => { active with countdownStartedAt := none }
    else
      let started := active.countdownStartedAt.getD nowMonotonic
      update fun active => { active with countdownStartedAt := some started }
      if nowMonotonic - started < handStartDelay then pure () else
      let coordinator ← someOr "逐手名单缺少协调者" (membership.proposal.coordinatorClaimId P)
      let localClaim := (membership.proposal.seatByPlayer active.localJoin.playerId).map
        fun seat => seat.joinIntent.claimId P
      if localClaim ≠ some coordinator then pure () else
      let domainMembership ← lift .session (membership.proposal.asMembership P)
      let ready ← lift .handRoster (ReadyHandRoster.fromMembership P domainMembership
        active.nextHandNumber active.previousReceiptHash active.previousDealerSeat)
      let proposal ← lift .roster (HandRosterProposal.assemble P ready membership now)
      let signed ← lift .roster (SignedHandRosterProposal.issue P proposal membership now device
        certificate)
      record (.signed (.rosterProposal signed))
      acceptRosterProposal P device certificate signed now

def activateRoster (confirmed : CertifiedRoster) : SessionM Unit := do
  let before ← getActive
  let ready ← lift id (readyTableFromProposal P confirmed.proposal before.localJoin.playerId)
  record (.activatedRoster before confirmed)
  update fun active => { active with
    readyTable := some ready
    activeRoster := some confirmed.proposal
    rosterCertificate := some confirmed
    pendingRoster := none
    rosterAcceptances := ∅
    -- the local acceptance is kept, to be sent again after the activation
    handActive := true
    countdownStartedAt := none }

def finalizeRosterIfReady (now : UInt64) : SessionM Unit := do
  let active ← getActive
  match active.pendingRoster with
  | none => pure ()
  | some pending =>
    if active.rosterAcceptances.size = pending.proposal.endpoints.length ∧
        isOk (verifyHandRosterAcceptances P pending (values active.rosterAcceptances) now) then
      update fun active => { active with pendingRoster := none }
      let confirmed ← lift .roster (CertifiedRoster.assemble P pending
        (values active.rosterAcceptances) now)
      activateRoster P confirmed
    else pure ()

end

end TokenHoldem
