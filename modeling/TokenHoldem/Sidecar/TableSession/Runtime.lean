import TokenHoldem.Sidecar.TableSession.Publish

/-!
# The table session runtime

The entry points of `TableSessionRuntime` in `table_session_runtime.rs`: the
commands of the user, the periodic tick, an incoming message and the end of a
hand. `TableSession.step` runs any one of them.
-/

namespace TokenHoldem

open Library SessionM

def joinIntentLifetimeMs : UInt64 := 30 * 60 * 1000

def sessionTicketLifetimeMs : UInt64 := 30 * 60 * 1000

def joinRenewalMarginMs : UInt64 := 5 * 60 * 1000

/-- `SIGNED_LEAVER_DISCONNECT_GRACE`, in milliseconds. -/
def signedLeaverDisconnectGrace : Nat := 10000

/-- `ABSOLUTE_SAFE_LEAVE_TIMEOUT`, in milliseconds. -/
def absoluteSafeLeaveTimeout : Nat := 120000

/-- `STALLED_SAFE_LEAVE_TIMEOUT`, in milliseconds. -/
def stalledSafeLeaveTimeout : Nat := 10000

/-- `IDLE_SAFE_LEAVE_TIMEOUT`, in milliseconds. -/
def idleSafeLeaveTimeout : Nat := 15000

/-- Who a runtime acts for: its device, the device's certificate and the local
peer id of the swarm. -/
structure LocalIdentity where
  device : DeviceIdentity
  certificate : DeviceCertificate
  peerId : PeerId

/-! ## Ending a hand -/

variable (P : Primitives)

def abandonedHandEvidenceHash (tableId : TableId) (handNumber : UInt64) (rosterHash : Bytes32)
    (leaveIntentId : LeaveIntentId) : Bytes32 :=
  P.hash (textBytes "token-holdem/abandoned-hand/v1\x00" ++ tableId.asBytes
    ++ u64Bytes handNumber ++ rosterHash.toBytes ++ leaveIntentId.asBytes)

/-- Whether the player of a leave intent for the current hand has been
disconnected for the whole grace period. -/
def leaverIsGone (active : ActiveSession) (membership : MembershipProposal) (nowMonotonic : Nat)
    (intent : LeaveIntent) : Bool :=
  intent.afterHandNumber = some active.nextHandNumber ∧
    ((membership.seatByPlayer intent.playerId).bind fun seat =>
      (P.peerIdFromBytes seat.joinIntent.ticket.sessionPeerId).bind fun peerId =>
        active.disconnectedExplicitPeers[peerId]?).any fun disconnectedAt =>
          signedLeaverDisconnectGrace ≤ nowMonotonic - disconnectedAt

def signedDisconnectedLeaver (active : ActiveSession) (nowMonotonic : Nat) :
    Option SignedLeaveAbandonment :=
  match active.handActive, active.membership, active.activeRoster with
  | true, some membership, some roster =>
    (((values active.leaves).filter
      (leaverIsGone P active membership.proposal nowMonotonic)).argmin (LeaveIntent.id P)).map
        fun intent =>
          { playerId := intent.playerId, handNumber := active.nextHandNumber,
            dealerSeat := roster.proposal.readyRoster.dealerSeat,
            evidenceHash := abandonedHandEvidenceHash P active.tableId active.nextHandNumber
              roster.proposal.readyRoster.rosterHash (intent.id P) }
  | _, _, _ => none

def finishHandBoundary (evidenceHash : Bytes32) (dealerSeat : PhysicalSeat) (nowMonotonic : Nat) :
    SessionM Unit := do
  let before ← getActive
  check (before.handActive = true) "当前没有可结束的手牌"
  update fun active => { active with
    handActive := false
    handClockKnown := true
    previousReceiptHash := some evidenceHash
    previousDealerSeat := some dealerSeat }
  let nextHandNumber ← someOr "下一手编号溢出" (checkedAdd before.nextHandNumber 1)
  record (.boundary before evidenceHash)
  update fun active => { active with
    nextHandNumber
    pendingRoster := none
    activeRoster := none
    rosterCertificate := none
    rosterAcceptances := ∅
    localRosterAcceptance := none
    pendingMembership := none
    membershipAcceptances := ∅
    localMembershipAcceptance := none
    countdownStartedAt := some nowMonotonic
    leaveCompleted := active.leaveCompleted ||
      (active.localLeave.isSome && active.localIsOnlySeat)
    localLeaveMembershipStartedAt :=
      if active.localLeave.isSome ∧ active.localIsOnlySeat = false then some nowMonotonic
      else active.localLeaveMembershipStartedAt }

/-! ## The tick -/

def issueJoinIntent (tableId : TableId) (ticket : PoolTicket) (identity : LocalIdentity)
    (now : UInt64) (nonce : FixedBytes 16) :
    Except SessionError JoinIntent := do
  let desiredExpiry ← okOr (.message "入桌意图有效期溢出") (checkedAdd now joinIntentLifetimeMs)
  (JoinIntent.issue P tableId ticket now
    (if desiredExpiry ≤ ticket.expiresAtUnixMs then desiredExpiry else ticket.expiresAtUnixMs)
    nonce identity.device identity.certificate).mapError fun error =>
      .context "无法签发入桌意图" (.session error)

def issueLocalSessionTicket (level : StakeLevel) (buyIn : Chips) (sessionAddresses : List Bytes)
    (identity : LocalIdentity) (now : UInt64) (nonce : FixedBytes 16) :
    Except SessionError PoolTicket := do
  let expiresAt ← okOr (.message "牌桌会话票据有效期溢出") (checkedAdd now sessionTicketLifetimeMs)
  (PoolTicket.issue P (P.peerIdToBytes identity.peerId) sessionAddresses level buyIn now expiresAt
    nonce identity.device identity.certificate).mapError fun error =>
      .context "无法签发牌桌会话票据" (.pool error)

/-- The random numbers a call draws. -/
structure Nonces where
  ticket : FixedBytes 16
  intent : FixedBytes 16

section

variable (P : Primitives) (identity : LocalIdentity)

variable (sessionAddresses : List Bytes)

/-- The renewal of the local join intent at the start of a tick. -/
def renewLocalJoin (now : UInt64) (nonces : Nonces) : SessionM Unit := do
  let active ← getActive
  if saturatingSub active.localJoin.expiresAtUnixMs now ≤ joinRenewalMarginMs ∧
      active.localLeave = none then
    let ticket ← lift id (issueLocalSessionTicket P active.level
      active.localJoin.ticket.requestedBuyIn sessionAddresses identity now nonces.ticket)
    record (.signed (.ticket ticket))
    let renewed ← lift id (issueJoinIntent P active.tableId ticket identity now nonces.intent)
    record (.signed (.joinIntent renewed))
    update fun active => { active with
      localJoin := renewed, joins := active.joins.insert (renewed.claimId P) renewed }
  else pure ()

/-- The abandonment of a hand whose signed leaver is gone. -/
def abandonHandIfLeaverGone (nowMonotonic : Nat) : SessionM Unit := do
  let active ← getActive
  match signedDisconnectedLeaver P active nowMonotonic with
  | none => pure ()
  | some abandonment => do
    record (.handAborted abandonment)
    finishHandBoundary abandonment.evidenceHash abandonment.dealerSeat nowMonotonic

/-- `TableSessionRuntime::tick` on an active session. -/
def tick (now : UInt64) (nowMonotonic : Nat) (nonces : Nonces) : SessionM Unit := do
  renewLocalJoin P identity sessionAddresses now nonces
  update fun active => { active with
    joins := active.joins.filter fun _ intent => isOk (intent.verifyAt P now)
    leaves := active.leaves.filter fun _ intent => isOk (intent.verifyAt P now) }
  abandonHandIfLeaverGone P nowMonotonic
  maybeProposeMembership P identity.device identity.certificate now
  finalizeMembershipIfReady P now nowMonotonic
  maybeProposeRoster P identity.device identity.certificate now nowMonotonic
  finalizeRosterIfReady P now
  synchronizeExplicitSessionPeers P identity.peerId
  publishActiveMessages P nowMonotonic

/-! ## Messages

Each handler says whether `handle_message` goes on to see what has become ready;
a message that repeats what is already active ends the call at once. -/

variable (source : Option PeerId)

def handleJoinIntent (intent : JoinIntent) (now : UInt64) : SessionM Bool := do
  let active ← getActive
  lift .session (intent.verifyAt P now)
  lift id (validateJoinScope active intent)
  lift id (verifySource P source intent.ticket.sessionPeerId)
  update fun active => { active with joins := active.joins.insert (intent.claimId P) intent }
  return true

def handleLeaveIntent (intent : LeaveIntent) (now : UInt64) : SessionM Bool := do
  let active ← getActive
  lift .session (intent.verifyAt P now)
  check (intent.tableId = active.tableId) "离桌意图属于另一张牌桌"
  lift id (verifyPlayerSource P active source intent.playerId)
  update fun active => { active with leaves := active.leaves.insert intent.playerId intent }
  return true

def handleMembershipProposal (signed : SignedMembershipProposal) (now : UInt64) :
    SessionM Bool := do
  let active ← getActive
  if active.membership = some signed then return false else
  lift .session (signed.verifyAt P now)
  lift id (validateMembershipScope active signed)
  let coordinator ← someOr "成员提案缺少协调者声明"
    (signed.proposal.seatByClaimId P signed.coordinatorClaimId)
  lift id (verifySource P source coordinator.joinIntent.ticket.sessionPeerId)
  update fun active => active.rememberEmbeddedJoins P signed.proposal
  acceptMembershipProposal P identity.device identity.certificate signed now
  return true

def handleMembershipAcceptance (acceptance : MembershipAcceptance) (now : UInt64) :
    SessionM Bool := do
  let active ← getActive
  if active.membership.map (fun signed => signed.proposal.proposalHash)
      = some acceptance.proposalHash then return false else
  let pending ← someOr "收到成员确认时尚无待确认提案" active.pendingMembership
  lift .session (MembershipAcceptance.verifyAt P pending now acceptance)
  let seat ← someOr "成员确认声明不在提案中" (pending.proposal.seatByClaimId P acceptance.claimId)
  lift id (verifySource P source seat.joinIntent.ticket.sessionPeerId)
  update fun active => { active with
    membershipAcceptances := active.membershipAcceptances.insert acceptance.claimId acceptance }
  return true

def handleCertifiedMembership (confirmed : CertifiedMembership) (now : UInt64)
    (nowMonotonic : Nat) :
    SessionM Bool := do
  let active ← getActive
  let proposal := confirmed.proposal.proposal
  if ∃ current ∈ active.membership, current.proposal.proposalHash = proposal.proposalHash ∨
      proposal.membershipVersion ≤ current.proposal.membershipVersion then return false else
  lift .session (confirmed.verifyAt P now)
  lift id (validateMembershipScope active confirmed.proposal)
  lift id (verifyMembershipCertificateSource P source proposal)
  update fun active => active.rememberEmbeddedJoins P proposal
  activateMembership confirmed nowMonotonic
  return true

def handleCertifiedRoster (confirmed : CertifiedRoster) (now : UInt64) : SessionM Bool := do
  let active ← getActive
  let proposal := confirmed.proposal.proposal
  if active.activeRoster.map (fun signed => signed.proposal.proposalHash)
      = some proposal.proposalHash then return false else
  lift .roster (confirmed.verifyAt P now)
  lift id (verifyRosterCertificateSource P source proposal)
  if (proposal.endpointForPlayer active.localJoin.playerId).isNone then return false else
  lift id (validateRosterScope active confirmed.proposal)
  activateRoster P confirmed
  return true

/-- The hand clock a late joiner takes over from a roster it takes part in. -/
def ActiveSession.adoptClock (active : ActiveSession) (roster : ReadyHandRoster) : ActiveSession :=
  if active.handClockKnown = false ∧ active.nextHandNumber < roster.handNumber then
    { active with
      nextHandNumber := roster.handNumber
      previousReceiptHash := roster.previousReceiptHash
      handClockKnown := true }
  else { active with handClockKnown := true }

def handleRosterProposal (signed : SignedHandRosterProposal) (now : UInt64) : SessionM Bool := do
  let active ← getActive
  if active.activeRoster = some signed then return false else
  lift .roster (signed.verifyAt P now)
  lift id (validateRosterScope active signed)
  let coordinator ← someOr "逐手协调者不在成员提案中"
    (signed.membership.proposal.seatByClaimId P signed.coordinatorClaimId)
  lift id (verifySource P source coordinator.joinIntent.ticket.sessionPeerId)
  acceptRosterProposal P identity.device identity.certificate signed now
  if (signed.proposal.endpointForPlayer active.localJoin.playerId).isSome then
    update fun active => active.adoptClock signed.proposal.readyRoster
    return true
  else return true

def handleRosterAcceptance (acceptance : HandRosterAcceptance) (now : UInt64) : SessionM Bool := do
  let active ← getActive
  if active.activeRoster.map (fun signed => signed.proposal.proposalHash)
      = some acceptance.proposalHash then return false else
  let pending ← someOr "收到逐手名单确认时尚无待确认名单" active.pendingRoster
  lift .roster (HandRosterAcceptance.verifyAt P pending now acceptance)
  let endpoint ← someOr "名单确认声明不在本手名单中"
    (pending.proposal.endpointForClaim acceptance.claimId)
  lift id (verifySource P source endpoint.sessionPeerId)
  update fun active => { active with
    rosterAcceptances := active.rosterAcceptances.insert acceptance.claimId acceptance }
  return true

/-- The `match` of `handle_message`. -/
def dispatchMessage (message : RoomWireMessage) (now : UInt64) (nowMonotonic : Nat) :
    SessionM Bool :=
  match message with
  | .joinIntent intent => handleJoinIntent P source intent now
  | .leaveIntent intent => handleLeaveIntent P source intent now
  | .membershipProposal signed => handleMembershipProposal P identity source signed now
  | .membershipAcceptance acceptance => handleMembershipAcceptance P source acceptance now
  | .certifiedMembership confirmed =>
    handleCertifiedMembership P source confirmed now nowMonotonic
  | .certifiedRoster confirmed => handleCertifiedRoster P source confirmed now
  | .rosterProposal signed => handleRosterProposal P identity source signed now
  | .rosterAcceptance acceptance => handleRosterAcceptance P source acceptance now

/-- `TableSessionRuntime::handle_message` on an active session, from the decoded
message on. -/
def handleMessage (message : RoomWireMessage) (now : UInt64) (nowMonotonic : Nat) :
    SessionM Unit := do
  let proceed ← dispatchMessage P identity source message now nowMonotonic
  if proceed then
    finalizeMembershipIfReady P now nowMonotonic
    maybeProposeRoster P identity.device identity.certificate now nowMonotonic
    finalizeRosterIfReady P now
  else pure ()

/-! ## Leaving -/

/-- `TableSessionRuntime::request_leave` on an active session. -/
def requestLeave (now : UInt64) (nowMonotonic : Nat) (nonce : FixedBytes 16) : SessionM Unit := do
  let active ← getActive
  if active.localLeave.isSome then pure () else
  let expiresAt ← someOr "离桌意图有效期溢出" (checkedAdd now joinIntentLifetimeMs)
  let _ ← someOr "离桌等待截止时间溢出"
    (checkedAdd now (UInt64.ofNat absoluteSafeLeaveTimeout))
  let intent ← lift .session (LeaveIntent.issue P active.tableId
    (if active.handActive then some active.nextHandNumber else none)
    ((active.membership.map fun signed => signed.proposal.membershipVersion).getD 1)
    now expiresAt nonce identity.device identity.certificate)
  record (.signed (.leaveIntent intent))
  update fun active => { active with
    leaves := active.leaves.insert intent.playerId intent
    localLeave := some intent
    localLeaveStartedAt := some nowMonotonic
    localLeaveMembershipStartedAt := if active.handActive then none else some nowMonotonic
    readyTable := none }
  deliverConsensusMessage (.leaveIntent intent) (leaveRecipients P active)
  update fun active => { active with lastSessionMessagesPublishedAt := some nowMonotonic }
  if active.handActive then pure () else
  update fun active => { active with
    pendingMembership := none
    membershipAcceptances := ∅
    localMembershipAcceptance := none
    leaveCompleted := active.leaveCompleted || active.localIsOnlySeat }

end

inductive ForcedLeaveReason where
  | handStalled
  | membershipTimeout
  | absoluteTimeout

def forcedLeaveReason (handActive handStalled : Bool) (totalElapsed : Nat)
    (membershipElapsed : Option Nat) : Option ForcedLeaveReason :=
  if handActive ∧ handStalled ∧ stalledSafeLeaveTimeout ≤ totalElapsed then some .handStalled
  else if handActive = false ∧ ∃ elapsed ∈ membershipElapsed, idleSafeLeaveTimeout ≤ elapsed then
    some .membershipTimeout
  else if absoluteSafeLeaveTimeout ≤ totalElapsed then some .absoluteTimeout
  else none

/-- `TableSessionRuntime::force_local_leave_if_due` on an active session. -/
def forceLocalLeaveIfDue (handStalled : Bool) (nowMonotonic : Nat) : SessionM Unit := do
  let active ← getActive
  if active.localLeave = none ∨ active.leaveCompleted then pure () else
  let startedAt ← someOr "本地离桌意图缺少等待起点" active.localLeaveStartedAt
  let reason := forcedLeaveReason active.handActive handStalled (nowMonotonic - startedAt)
    (active.localLeaveMembershipStartedAt.map fun started => nowMonotonic - started)
  if reason = none then pure () else
  update fun active => { active with leaveCompleted := true }

/-! ## Entering a table -/

namespace TableSession

variable (P : Primitives) (identity : LocalIdentity)

/-- `TableSessionRuntime::create`: the session it starts, or its error. -/
def create (tableId : TableId) (creatorPlayerId : PlayerId) (ticket : PoolTicket) (now : UInt64)
    (nonce : FixedBytes 16) : Except SessionError Running := do
  let localJoin ← issueJoinIntent P tableId ticket identity now nonce
  let seat ← (PhysicalSeat.new 1).mapError fun error =>
    .context "创建牌桌时首个物理席位无效" (.membership error)
  let proposal ← (MembershipProposal.assemble P tableId localJoin.level 1 none
    [⟨seat, localJoin⟩] [] [] now).mapError .session
  let signed ← (SignedMembershipProposal.issue P proposal now identity.device
    identity.certificate).mapError .session
  let acceptance ← (MembershipAcceptance.issue P signed (localJoin.claimId P) now identity.device
    identity.certificate).mapError .session
  let confirmed ← (CertifiedMembership.assemble P signed [acceptance] now).mapError .session
  return {
    active := { ActiveSession.new P tableId creatorPlayerId localJoin none with
      handClockKnown := true, membership := some signed,
      membershipCertificate := some confirmed }
    trace := [.entered, .signed (.joinIntent localJoin), .signed (.membershipProposal signed),
      .signed (.membershipAcceptance signed acceptance), .activatedMembership none confirmed] }

/-- `TableSessionRuntime::join`: the session it starts, or its error. -/
def join (tableId : TableId) (creatorPlayerId : PlayerId) (admissionPeerId : Bytes)
    (admissionAddresses : List Bytes) (ticket : PoolTicket) (now : UInt64)
    (nonce : FixedBytes 16) : Except SessionError Running := do
  let recipient ← (directRoomRecipient P admissionPeerId admissionAddresses).mapError
    (.context "牌桌接纳端点无效")
  ensure (recipient.peerId ≠ identity.peerId) (.message "不能通过本机会话端点加入远端牌桌")
  let localJoin ← issueJoinIntent P tableId ticket identity now nonce
  let active := { ActiveSession.new P tableId creatorPlayerId localJoin (some recipient) with
    ownsExplicitPeers := true }
  let desired ← desiredPeers P identity.peerId active
  return {
    active := { active with explicitPeers := desired }
    trace := [.entered, .signed (.joinIntent localJoin)] }

/-! ## One call of the runtime -/

/-- The calls of `TableSessionRuntime` that change it. -/
inductive Command where
  | create (tableId : TableId) (creatorPlayerId : PlayerId) (ticket : PoolTicket) (now : UInt64)
      (nonce : FixedBytes 16)
  | join (tableId : TableId) (creatorPlayerId : PlayerId) (admissionPeerId : Bytes)
      (admissionAddresses : List Bytes) (ticket : PoolTicket) (now : UInt64)
      (nonce : FixedBytes 16)
  | tick (sessionAddresses : List Bytes) (now : UInt64) (nowMonotonic : Nat) (nonces : Nonces)
  | message (source : Option PeerId) (payload : RoomWireMessage) (now : UInt64)
      (nowMonotonic : Nat)
  | requestLeave (now : UInt64) (nowMonotonic : Nat) (nonce : FixedBytes 16)
  | forceLocalLeaveIfDue (handStalled : Bool) (nowMonotonic : Nat)
  | handBoundary (receiptHash : Bytes32) (dealerSeat : PhysicalSeat) (nowMonotonic : Nat)
  | peerConnected (peerId : PeerId)
  | peerDisconnected (peerId : PeerId) (nowMonotonic : Nat)
  | adoptExplicitPeers (peers : List PeerId)
  | takeReadyTable
  | takeLeaveCompleted
  /-- `close` and `migrate_to_pool`, which both drop the session. -/
  | close

/-- A call on the session, if there is one. -/
inductive Call where
  | enter (result : Except SessionError Running)
  | run (call : SessionM Unit)
  | drop

/-- What a command does: start a session, work on the active one, or drop it. -/
def Command.call : Command → Call
  | .create tableId creator ticket now nonce =>
    .enter (TableSession.create P identity tableId creator ticket now nonce)
  | .join tableId creator admissionPeerId admissionAddresses ticket now nonce =>
    .enter (TableSession.join P identity tableId creator admissionPeerId admissionAddresses ticket
      now nonce)
  | .tick sessionAddresses now nowMonotonic nonces =>
    .run (TokenHoldem.tick P identity sessionAddresses now nowMonotonic nonces)
  | .message source payload now nowMonotonic =>
    .run (handleMessage P identity source payload now nowMonotonic)
  | .requestLeave now nowMonotonic nonce =>
    .run (TokenHoldem.requestLeave P identity now nowMonotonic nonce)
  | .forceLocalLeaveIfDue handStalled nowMonotonic =>
    .run (TokenHoldem.forceLocalLeaveIfDue handStalled nowMonotonic)
  | .handBoundary receiptHash dealerSeat nowMonotonic =>
    .run (finishHandBoundary receiptHash dealerSeat nowMonotonic)
  | .peerConnected peerId => .run (update fun active => { active with
      disconnectedExplicitPeers := active.disconnectedExplicitPeers.erase peerId })
  | .peerDisconnected peerId nowMonotonic => .run (update fun active =>
      if peerId ∈ active.explicitPeers then { active with
        disconnectedExplicitPeers :=
          active.disconnectedExplicitPeers.insertIfNew peerId nowMonotonic }
      else active)
  | .adoptExplicitPeers peers => .run (update fun active => { active with
      explicitPeers := (active.explicitPeers ++ peers).dedup, ownsExplicitPeers := true })
  | .takeReadyTable => .run (update fun active =>
      if active.localLeave.isNone then { active with readyTable := none } else active)
  | .takeLeaveCompleted => .run (update fun active => { active with leaveCompleted := false })
  | .close => .drop

/-- The session after a command, and what the command did. A command that fails
keeps what it had changed; without a session only entering has an effect. -/
def step (command : Command) (session : Option ActiveSession) :
    Option ActiveSession × List Effect :=
  match command.call P identity, session with
  | .enter (.ok running), _ => (some running.active, running.trace)
  | .enter (.error _), session => (session, [])
  | .run call, some active =>
    let running := endState (call.run ⟨active, []⟩)
    (some running.active, running.trace)
  | .run _, none => (none, [])
  | .drop, _ => (none, [])

end TableSession

end TokenHoldem
