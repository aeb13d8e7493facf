import TokenHoldem.Sidecar.TableSession.State

/-!
# Agreeing on a membership

The membership half of `table_session_runtime.rs`. The coordinator lays out the
next membership from the join and leave intents it knows and proposes it; every
peer that is seated in a proposal signs it; a proposal with the signatures of
all its seats becomes the membership of the table.
-/

namespace TokenHoldem

open Library SessionM

namespace ActiveSession

variable (active : ActiveSession)

def containsLocalPlayer (proposal : MembershipProposal) : Bool :=
  (proposal.seatByPlayer active.localJoin.playerId).isSome ||
    proposal.waiting.any fun intent => intent.playerId = active.localJoin.playerId

def localIsOnlySeat : Bool :=
  active.membership.any fun membership =>
    membership.proposal.seats.length == 1 && membership.proposal.seats.head?.any fun seat =>
      seat.joinIntent.playerId = active.localJoin.playerId

def localAdmissionAcknowledged : Bool :=
  (active.pendingMembership.or active.membership).any fun membership =>
    active.containsLocalPlayer membership.proposal

end ActiveSession

/-! ## The next layout -/

variable (P : Primitives)

/-- The entry `by_player` keeps for a player when a second intent of it is met. -/
def preferredJoin (current intent : JoinIntent) : JoinIntent :=
  if current.createdAtUnixMs < intent.createdAtUnixMs ∨
      (intent.createdAtUnixMs = current.createdAtUnixMs ∧ intent.claimId P < current.claimId P)
  then intent else current

def canonicalPlayerJoins (active : ActiveSession) (now : UInt64) : List JoinIntent :=
  let byPlayer := (values active.joins).foldl (fun byPlayer intent =>
    if isOk (intent.verifyAt P now) ∧ intent.tableId = active.tableId ∧
        intent.level = active.level then
      match byPlayer[intent.playerId]? with
      | none => byPlayer.insert intent.playerId intent
      | some current => byPlayer.insert intent.playerId (preferredJoin P current intent)
    else byPlayer) (∅ : Std.TreeMap PlayerId JoinIntent)
  sortByKey (JoinIntent.claimId P) (values byPlayer)

/-- The seats and the waiting list while the candidates are placed. -/
structure Layout where
  seats : Std.TreeMap PhysicalSeat JoinIntent
  waiting : List JoinIntent

/-- The first free seat of the table. -/
def firstFreeSeat (seats : Std.TreeMap PhysicalSeat JoinIntent) : Option PhysicalSeat :=
  ([1, 2, 3, 4, 5, 6].map PhysicalSeat.mk).find? fun seat => ¬ seats.contains seat

/-- One round of the loop over the candidates. -/
def placeCandidate (handActive : Bool) (layout : Layout) (intent : JoinIntent) :
    Except SessionError Layout :=
  if handActive ∨ tableCapacity ≤ layout.seats.size then
    if layout.waiting.length < waitingCapacity then
      .ok { layout with waiting := layout.waiting ++ [intent] }
    else .ok layout
  else do
    let physical ← okOr (.message "成员未满但找不到空物理席位") (firstFreeSeat layout.seats)
    return { layout with seats := layout.seats.insert physical intent }

/-- One round of the loop that keeps the players already waiting. -/
def keepWaiting (joinsByPlayer : Std.TreeMap PlayerId JoinIntent) (waiting : List JoinIntent)
    (intent : JoinIntent) : List JoinIntent :=
  match joinsByPlayer[intent.playerId]? with
  | some join =>
    if (∀ candidate ∈ waiting, candidate.playerId ≠ intent.playerId) ∧
        waiting.length < waitingCapacity then waiting ++ [join]
    else waiting
  | none => waiting

variable (active : ActiveSession)

/-- The members of the current membership that keep their seats. -/
def keptSeats (joinsByPlayer : Std.TreeMap PlayerId JoinIntent) :
    Std.TreeMap PhysicalSeat JoinIntent :=
  ((active.membership.map fun membership => membership.proposal.seats).getD []).foldl
    (fun seats seat =>
      let player := seat.joinIntent.playerId
      if active.handActive = false ∧ active.leaves.contains player then seats
      else match joinsByPlayer[player]? with
        | some intent => seats.insert seat.physicalSeat intent
        | none => seats) ∅

def nextMembershipLayout (active : ActiveSession) (validJoins : List JoinIntent) :
    Except SessionError (List MembershipSeatClaim × List JoinIntent) := do
  let joinsByPlayer := validJoins.foldl (fun byPlayer intent =>
    byPlayer.insert intent.playerId intent) (∅ : Std.TreeMap PlayerId JoinIntent)
  let seats := keptSeats active joinsByPlayer
  let occupied := (values seats).map JoinIntent.playerId
  let candidates := sortByKey (JoinIntent.claimId P) (validJoins.filter fun intent =>
    intent.playerId ∉ occupied ∧
      (¬ active.leaves.contains intent.playerId ∨ active.handActive = true))
  let layout ← candidates.foldlM (placeCandidate active.handActive) ⟨seats, []⟩
  let waiting :=
    if active.handActive then
      ((active.membership.map fun membership => membership.proposal.waiting).getD []).foldl
        (keepWaiting joinsByPlayer) layout.waiting
    else layout.waiting
  return (layout.seats.toList.map fun entry => ⟨entry.1, entry.2⟩,
    sortByKey (JoinIntent.claimId P) waiting)

def membershipLayoutUnchanged (current : Option SignedMembershipProposal)
    (seats : List MembershipSeatClaim) (waiting : List JoinIntent) : Bool :=
  current.any fun current =>
    current.proposal.seats.length == seats.length
      && current.proposal.waiting.length == waiting.length
      && (current.proposal.seats.zip seats).all (fun pair =>
        pair.1.physicalSeat = pair.2.physicalSeat ∧
          pair.1.joinIntent.claimId P = pair.2.joinIntent.claimId P)
      && (current.proposal.waiting.zip waiting).all fun pair =>
        pair.1.claimId P = pair.2.claimId P

/-! ## Checks on what arrives -/

def verifySource (source : Option PeerId) (expected : Bytes) : Except SessionError Unit := do
  let source ← okOr (.message "严格签名的房间消息缺少源 PeerId") source
  let expected ← okOr (.context "房间消息声明的 PeerId 无效" .libp2p) (P.peerIdFromBytes expected)
  ensure (source = expected) (.message "房间消息源与签名对象的会话 PeerId 不一致")

def verifyPlayerSource (active : ActiveSession) (source : Option PeerId) (playerId : PlayerId) :
    Except SessionError Unit := do
  let expected ← okOr (.message "无法从入桌声明解析离桌玩家端点")
    ((values active.joins).find? fun intent => intent.playerId = playerId)
  verifySource P source expected.ticket.sessionPeerId

def verifyMembershipCertificateSource (source : Option PeerId) (proposal : MembershipProposal) :
    Except SessionError Unit := do
  let source ← okOr (.message "成员证书缺少源 PeerId") source
  ensure (∃ intent ∈ proposal.seats.map MembershipSeatClaim.joinIntent ++ proposal.waiting,
    P.peerIdFromBytes intent.ticket.sessionPeerId = some source)
    (.message "成员证书不是由证书内参与者转发")

def validateJoinScope (intent : JoinIntent) : Except SessionError Unit := do
  ensure (intent.tableId = active.tableId) (.message "入桌意图属于另一张牌桌")
  ensure (intent.level = active.level) (.message "入桌意图牌局级别不一致")

variable (signed : SignedMembershipProposal)

def validateMembershipScope : Except SessionError Unit := do
  let proposal := signed.proposal
  ensure (proposal.tableId = active.tableId) (.message "成员提案属于另一张牌桌")
  ensure (proposal.level = active.level) (.message "成员提案牌局级别不一致")
  match active.membership with
  | some current => do
    ensure (proposal.membershipVersion = saturatingAdd current.proposal.membershipVersion 1)
      (.message "成员提案版本不连续")
    ensure (proposal.previousMembershipHash = some current.proposal.proposalHash)
      (.message "成员提案没有衔接当前成员摘要")
    if active.handActive then
      checkAll (fun seat => do
        let next ← okOr (.message "手牌进行中的成员提案移除了当前参与者")
          (proposal.seatByPlayer seat.joinIntent.playerId)
        ensure (next.physicalSeat = seat.physicalSeat)
          (SessionError.message "手牌进行中的成员提案改变了当前参与者物理席位"))
        current.proposal.seats
    else .ok ()
  | none => do
    ensure (active.containsLocalPlayer proposal) (.message "首次同步的成员快照没有包含本地玩家")
    if proposal.membershipVersion = 1 then
      ensure (proposal.previousMembershipHash = none) (.message "首版成员提案不能引用上一版本")
    else
      ensure (proposal.previousMembershipHash ≠ none) (.message "高版本成员快照必须引用上一版本")

/-! ## Proposing, accepting, activating -/

def ActiveSession.rememberEmbeddedJoins (active : ActiveSession) (proposal : MembershipProposal) :
    ActiveSession :=
  { active with
    joins := (proposal.seats.map MembershipSeatClaim.joinIntent ++ proposal.waiting).foldl
      (fun joins intent => joins.insert (intent.claimId P) intent) active.joins
    leaves := proposal.leaveIntents.foldl
      (fun leaves intent => leaves.insert intent.playerId intent) active.leaves }

namespace CertifiedMembership

def assemble (P : Primitives) (proposal : SignedMembershipProposal)
    (acceptances : List MembershipAcceptance) (now : UInt64) :
    Except TableSessionProtocolError CertifiedMembership := do
  let acceptances := sortByKey Acceptance.claimId acceptances
  verifyMembershipAcceptances P proposal acceptances now
  return ⟨proposal, acceptances⟩

def verifyAt (P : Primitives) (certificate : CertifiedMembership) (now : UInt64) :
    Except TableSessionProtocolError Unit :=
  verifyMembershipAcceptances P certificate.proposal certificate.acceptances now

end CertifiedMembership

/-- Whether a proposal takes the place of the pending one. -/
def replacesMembership : Prop :=
  ∀ current ∈ active.pendingMembership,
    current.proposal.membershipVersion < signed.proposal.membershipVersion ∨
      (signed.proposal.membershipVersion = current.proposal.membershipVersion ∧
        signed.proposal.proposalHash < current.proposal.proposalHash)
deriving Decidable

section

variable (P : Primitives) (device : DeviceIdentity) (certificate : DeviceCertificate)

def acceptMembershipProposal (signed : SignedMembershipProposal) (now : UInt64) :
    SessionM Unit := do
  let active ← getActive
  if replacesMembership active signed then
    record (.openedMembership active now signed)
    update fun active => { active with
      pendingMembership := some signed, membershipAcceptances := ∅,
      localMembershipAcceptance := none }
    match signed.proposal.seatByPlayer active.localJoin.playerId with
    | none => pure ()
    | some seat => do
      let acceptance ← lift .session (MembershipAcceptance.issue P signed
        (seat.joinIntent.claimId P) now device certificate)
      record (.signed (.membershipAcceptance signed acceptance))
      update fun active => { active with
        membershipAcceptances :=
          active.membershipAcceptances.insert acceptance.claimId acceptance
        localMembershipAcceptance := some acceptance }
  else pure ()

def maybeProposeMembership (now : UInt64) : SessionM Unit := do
  let active ← getActive
  match active.pendingMembership, active.membership with
  | some _, _ => pure ()
  | none, none => pure ()
  | none, some membership => do
    let validJoins := canonicalPlayerJoins P active now
    if validJoins = [] then pure () else
    let (seats, waiting) ← lift id (nextMembershipLayout P active validJoins)
    if seats = [] then pure () else
    let coordinator ← someOr "成员提案缺少协调者" (seats.argmin MembershipSeatClaim.physicalSeat)
    let localClaim := (seats.find? fun seat =>
      seat.joinIntent.playerId = active.localJoin.playerId).map fun seat =>
        seat.joinIntent.claimId P
    if localClaim ≠ some (coordinator.joinIntent.claimId P) then pure () else
    if membershipLayoutUnchanged P active.membership seats waiting then pure () else
    let proposal ← lift .session (MembershipProposal.assemble P active.tableId active.level
      (saturatingAdd membership.proposal.membershipVersion 1)
      (some membership.proposal.proposalHash) seats waiting (values active.leaves) now)
    let signed ← lift .session (SignedMembershipProposal.issue P proposal now device certificate)
    record (.signed (.membershipProposal signed))
    record (.proposedMembership active now signed)
    acceptMembershipProposal P device certificate signed now

def activateMembership (confirmed : CertifiedMembership) (nowMonotonic : Nat) : SessionM Unit := do
  let before ← getActive
  record (.activatedMembership (some before) confirmed)
  update fun active => { active with
    membership := some confirmed.proposal
    membershipCertificate := some confirmed
    pendingMembership := none
    membershipAcceptances := ∅
    -- the local acceptance is kept: others may need it to rebuild the certificate
    pendingRoster := none
    rosterAcceptances := ∅
    localRosterAcceptance := none
    countdownStartedAt :=
      if active.handActive = false ∧ 2 ≤ confirmed.proposal.proposal.seats.length then
        some (active.countdownStartedAt.getD nowMonotonic)
      else active.countdownStartedAt
    leaveCompleted := active.leaveCompleted ||
      (active.localLeave.isSome && !active.containsLocalPlayer confirmed.proposal.proposal) }

def finalizeMembershipIfReady (now : UInt64) (nowMonotonic : Nat) : SessionM Unit := do
  let active ← getActive
  match active.pendingMembership with
  | none => pure ()
  | some pending =>
    if active.membershipAcceptances.size = pending.proposal.seats.length ∧
        isOk (verifyMembershipAcceptances P pending (values active.membershipAcceptances) now) then
      update fun active => { active with pendingMembership := none }
      let confirmed ← lift .session (CertifiedMembership.assemble P pending
        (values active.membershipAcceptances) now)
      activateMembership confirmed nowMonotonic
    else pure ()

end

end TokenHoldem
