import TokenHoldem.Sidecar.HandRuntime.Hands
import TokenHoldem.Sidecar.TablePool
import TokenHoldem.Sidecar.TableSession.Runtime

/-!
# The periodic tick of the sidecar

`protocol_tick` of `token-holdem-sidecar/src/main.rs`, with the functions that pass
the events of the pool, the session and the hand on to each other. All of them work
on `RuntimeState` and return at the first error, with what they have changed so far.

Events are written to standard output; that, the relay and the discovery are left
out. A player identity cannot be exchanged while there is a session, so it is a
parameter here. What becomes of a receipt in the archive is an input of the tick.
-/

namespace TokenHoldem

open Library HandRuntime

/-! ## What the sidecar asks of its parts -/

inductive LocalRoomRole where
  | joining
  | waiting
  | seated
  | playing
  | leaving
deriving DecidableEq

namespace ActiveSession

variable (active : ActiveSession)

def localRole : LocalRoomRole :=
  if active.localLeave.isSome then .leaving else
  match active.membership with
  | none => .joining
  | some membership =>
    if (membership.proposal.seatByPlayer active.localJoin.playerId).isSome then
      if active.handActive then .playing else .seated
    else if ∃ intent ∈ membership.proposal.waiting,
        intent.playerId = active.localJoin.playerId then .waiting
    else .joining

def canConvergeSingleton (P : Primitives) : Bool :=
  !active.handActive && active.localLeave.isNone && active.pendingMembership.isNone &&
    active.pendingRoster.isNone && active.joins.size = 1 && active.leaves.isEmpty &&
    active.membership.any fun membership =>
      membership.proposal.membershipVersion = 1 ∧ membership.proposal.seats.length = 1 ∧
        membership.proposal.waiting = [] ∧ ∃ seat ∈ membership.proposal.seats.head?,
          seat.joinIntent.claimId P = active.localJoin.claimId P

/-- `TableSessionRuntime::advertisement` of an active session. -/
def advertisement (P : Primitives) : Option LocalTableAdvertisement :=
  active.membership.bind fun membership =>
    if membership.proposal.coordinatorClaimId P ≠ some (active.localJoin.claimId P) then none
    else some {
      tableId := active.tableId
      memberCount := (tryU8 membership.proposal.seats.length).getD (UInt8.ofNat tableCapacity)
      waitingCount := (tryU8 membership.proposal.waiting.length).getD (UInt8.ofNat waitingCapacity)
      lifecycle := if active.handActive then .handInProgress else .waiting
      membershipVersion := membership.proposal.membershipVersion
      membershipHash := membership.proposal.proposalHash
      creatorPlayerId := active.creatorPlayerId
      convergenceEligible := active.canConvergeSingleton P }

end ActiveSession

def PoolPhase.isJoining : PoolPhase → Bool
  | .joining _ _ => true
  | .searching | .creating _ | .inRoom => false

namespace ActivePool

variable (pool : ActivePool)

def setLocalAdvertisement (advertisement : Option LocalTableAdvertisement) : ActivePool :=
  if pool.localAdvertisement = advertisement then pool
  else { pool with localAdvertisement := advertisement, lastAdvertisementPublishedAt := none }

/-- The table of a join attempt that has taken too long. -/
def expiredJoin (nowMonotonic : Nat) : Option TableId :=
  match pool.phase with
  | .joining tableId startedAt =>
    if joinAttemptTimeout ≤ nowMonotonic - startedAt then some tableId else none
  | _ => none

/-- `TablePoolRuntime::mark_joined`: the pool and the peers it hands over, if the
table is the one it has been waiting for. -/
def markJoined (tableId : TableId) : Option (ActivePool × List PeerId) :=
  let expected := match pool.phase with
    | .joining expected _ | .creating expected => some expected
    | .searching | .inRoom => none
  if expected = some tableId then
    some ({ pool with phase := .inRoom, rejectedTables := [], explicitPeers := [] },
      pool.explicitPeers)
  else none

end ActivePool

/-! ## The state -/

structure RuntimeState (Z : Ziffle) where
  pool : Option ActivePool
  session : Option ActiveSession
  hand : HandRuntime Z
  /-- How many sessions have been entered. The source has no such field; it tells a
  session from the next one. -/
  entered : Nat

inductive TickError where
  | session (error : SessionError)
  | hand (error : HandError)

abbrev TickM (Z : Ziffle) := EStateM TickError (RuntimeState Z)

/-- What a tick is given: the readings of the clocks for its parts, random numbers and
what it reads of the swarm. -/
structure ProtocolTick (Z : Ziffle) where
  swarm : PoolSwarm
  /-- What `collect_session_addresses` finds. -/
  sessionAddresses : List Bytes
  poolNow : UInt64
  poolMonotonic : Nat
  ticketNonce : FixedBytes 16
  advertisementNonce : FixedBytes 16
  tableNonce : Bytes32
  decisionNow : UInt64
  decisionNonce : FixedBytes 16
  sessionNow : UInt64
  sessionMonotonic : Nat
  sessionNonces : Nonces
  execution : HandExecutionContext Z
  seed : Z.Seed
  boundaryMonotonic : Nat
  forcedMonotonic : Nat
  /-- What `publish_receipt` and `process_archive_events` return for a receipt. -/
  archive : CoSignedReceipt → Except TickError Unit

namespace TickM

variable {Z : Ziffle} {α : Type}

/-- A call of the session: what it has done, or the error it ends with. -/
def onSession (call : SessionM Unit) : TickM Z (List Effect) := fun s =>
  match s.session with
  | none => .ok [] s
  | some active =>
    match call.run ⟨active, []⟩ with
    | .ok _ t => .ok t.trace { s with session := some t.active }
    | .error e t => .error (.session e) { s with session := some t.active }

variable {s : RuntimeState Z}

theorem run_onSession_none {call : SessionM Unit} (h : s.session = none) :
    (onSession call).run s = .ok [] s := by
  show (match s.session with | none => _ | some _ => _) = _
  rw [h]

theorem run_onSession_some {call : SessionM Unit} {active : ActiveSession}
    (h : s.session = some active) :
    (onSession call).run s = match call.run ⟨active, []⟩ with
      | .ok _ t => .ok t.trace { s with session := some t.active }
      | .error e t => .error (.session e) { s with session := some t.active } := by
  show (match s.session with | none => _ | some _ => _) = _
  rw [h]

/-- A call of the pool, which decides nothing without one. -/
def onPool (call : PoolM (Option α)) : TickM Z (Option α) := fun s =>
  match s.pool with
  | none => .ok none s
  | some pool =>
    match call.run pool with
    | .ok decision t => .ok decision { s with pool := some t }
    | .error e t => .error (.session e) { s with pool := some t }

/-- A call of the hand runtime. -/
def onHandRuntime (call : HandRuntimeM Z α) : TickM Z α := fun s =>
  match call.run ⟨s.hand, []⟩ with
  | .ok a t => .ok a { s with hand := t.active }
  | .error e t => .error (.hand e) { s with hand := t.active }

theorem endState_onPool (call : PoolM (Option α)) (s : RuntimeState Z) :
    ∃ pool, endState ((onPool call).run s) = { s with pool := pool } := by
  unfold onPool
  dsimp only [EStateM.run]
  split
  · exact ⟨s.pool, rfl⟩
  · split <;> exact ⟨_, rfl⟩

theorem endState_onHandRuntime (call : HandRuntimeM Z α) (s : RuntimeState Z) :
    ∃ hand, endState ((onHandRuntime call).run s) = { s with hand := hand } := by
  unfold onHandRuntime
  dsimp only [EStateM.run]
  split <;> exact ⟨_, rfl⟩

def succeeds (x : TickM Z α) (s : RuntimeState Z) : Bool :=
  match x.run s with
  | .ok _ _ => true
  | .error _ _ => false

theorem succeeds_iff {x : TickM Z α} : x.succeeds s = true ↔ ∃ a t, x.run s = .ok a t := by
  unfold succeeds
  cases x.run s with
  | ok a t => exact ⟨fun _ => ⟨a, t, rfl⟩, fun _ => rfl⟩
  | error e t => exact ⟨fun h => absurd h Bool.false_ne_true, fun ⟨_, _, h⟩ => nomatch h⟩

/-- A change of the session, if there is one. -/
def updateSession (change : ActiveSession → ActiveSession) : TickM Z Unit :=
  modify fun s => { s with session := s.session.map change }

/-- `TableSessionRuntime::close`. -/
def closeSession : TickM Z Unit := modify fun s => { s with session := none }

/-- A new session, from `create` or `join`. -/
def enterSession (result : Except SessionError Running) : TickM Z (List Effect) :=
  match result with
  | .ok running => do
    modify fun s => { s with session := some running.active, entered := s.entered + 1 }
    return running.trace
  | .error e => throw (.session e)

/-- `anyhow::ensure!`. -/
def check (condition : Prop) [Decidable condition] (text : String) : TickM Z Unit :=
  if condition then pure () else throw (.session (.message text))

/-- `option.context(text)?`. -/
def someOr (text : String) (option : Option α) : TickM Z α :=
  orThrow (.session (.message text)) option

/-- `for item in items { body(item)?; }`. -/
def forEach (body : α → TickM Z Unit) : List α → TickM Z Unit
  | [] => pure ()
  | item :: items => do
    body item
    forEach body items

end TickM

open TickM

section

variable (L : HandPrimitives) (identity : LocalIdentity) (input : ProtocolTick L.ziffle)

/-! ## Passing events on -/

def completeLocalLeave {Z : Ziffle} : TickM Z Unit := do
  onHandRuntime leave
  closeSession
  modify fun s => { s with pool := none }

/-- The events `HandAbortedForLeave`. -/
def abortHands {Z : Ziffle} (tableId : Option TableId) (events : List Effect) : TickM Z Unit :=
  forEach (fun event =>
    match event, tableId with
    | .handAborted abandonment, some tableId =>
      onHandRuntime (abortForSignedLeave tableId abandonment.handNumber)
    | _, _ => pure ()) events

/-- The pool learns that its table has let the player in. -/
def markJoinedIn {Z : Ziffle} (active : ActiveSession) (pool : ActivePool) : TickM Z Unit :=
  if active.localAdmissionAcknowledged ∨ active.localRole = .waiting ∨
      active.localRole = .seated ∨ active.localRole = .playing then
    match pool.markJoined active.tableId with
    | none => pure ()
    | some (joined, peers) => do
      modify fun s => { s with pool := some joined }
      updateSession fun active => { active with
        explicitPeers := (active.explicitPeers ++ peers).dedup, ownsExplicitPeers := true }
  else pure ()

def markJoined {Z : Ziffle} : TickM Z Unit := do
  let state ← get
  match state.session, state.pool with
  | some active, some pool => markJoinedIn active pool
  | _, _ => pure ()

def takeLeaveCompleted {Z : Ziffle} : TickM Z Bool := do
  let state ← get
  updateSession fun active => { active with leaveCompleted := false }
  return state.session.any fun active => active.leaveCompleted

def takeReadyTable {Z : Ziffle} : TickM Z (Option ReadyTable) := do
  let state ← get
  updateSession fun active =>
    if active.localLeave.isNone then { active with readyTable := none } else active
  return state.session.bind fun active =>
    if active.localLeave.isNone then active.readyTable else none

/-- `process_table_session_events`, with what happens to a table that is ready. -/
def processTableSessionEvents {Z : Ziffle} (startHand : ReadyTable → TickM Z Unit)
    (events : List Effect) : TickM Z Unit := do
  let state ← get
  abortHands (state.session.map ActiveSession.tableId) events
  markJoined
  if ← takeLeaveCompleted then completeLocalLeave
  else match ← takeReadyTable with
    | none => pure ()
    | some table => startHand table

/-- `process_hand_events`, with what happens to the events of the session. -/
def processHandEvents (processEvents : List Effect → TickM L.ziffle Unit) :
    TickM L.ziffle Unit := do
  let receipts ← onHandRuntime takeNewlyFinalizedReceipts
  forEach (fun receipt => match input.archive receipt with
    | .ok () => pure ()
    | .error e => throw e) receipts
  match ← onHandRuntime (takeHandBoundary L) with
  | none => pure ()
  | some boundary => do
    let state ← get
    let _ ← someOr "尚未进入牌桌房间" state.session
    let events ← onSession (finishHandBoundary boundary.receiptHash.bytes boundary.dealerSeat
      input.boundaryMonotonic)
    processEvents events

/-- The hand of a table that is ready is started, and its events are passed on. The
table has been taken then, and the end of a hand does not bring another. -/
def startReadyHand (table : ReadyTable) : TickM L.ziffle Unit := do
  onHandRuntime (start L table input.seed input.execution)
  processHandEvents L input (processTableSessionEvents fun _ => pure ())

/-- `process_table_session_events`. -/
def processSessionEvents (events : List Effect) : TickM L.ziffle Unit :=
  processTableSessionEvents (startReadyHand L input) events

/-- `process_pool_events`: a join attempt that has taken too long gives up its
session. -/
def processPoolEvents {Z : Ziffle} (expired : Option TableId) : TickM Z Unit := do
  let state ← get
  match expired, state.session with
  | some tableId, some active =>
    if active.localRole = .joining ∧ active.tableId = tableId then closeSession else pure ()
  | _, _ => pure ()

/-- The first half of `process_pool_decision`: a session that converges into another
table is given up, its peers go to the pool. -/
def migrateForDecision {Z : Ziffle} (decision : PoolDecision) : TickM Z Unit := do
  let state ← get
  match decision, state.session with
  | .join _, some active => do
    closeSession
    let peers := if active.ownsExplicitPeers then active.explicitPeers else []
    if peers = [] then pure () else
    match state.pool with
    | none => throw (.session (.message "公开池迁移时尚未加入匹配池"))
    | some pool =>
      check (pool.phase.isJoining) "只有正在加入牌桌的公开池才能接管连接租约"
      modify fun s => { s with pool := some { pool with
        explicitPeers := (pool.explicitPeers ++ peers).dedup } }
  | _, none => pure ()
  | .create _ _, some _ => throw (.session (.message "公开池决策到达时已有牌桌会话"))

def processPoolDecision (decision : PoolDecision) : TickM L.ziffle Unit := do
  migrateForDecision decision
  let state ← get
  let pool ← someOr "公开池决策缺少本地入池票据" state.pool
  match decision with
  | .create tableId creatorPlayerId => do
    let events ← enterSession (TableSession.create L.toPrimitives identity tableId creatorPlayerId
      pool.localTicket input.decisionNow input.decisionNonce)
    processSessionEvents L input events
  | .join advertisement => do
    let admissionPeerId ← someOr "牌桌广告的接纳 PeerId 无效"
      (L.peerIdFromBytes advertisement.admissionPeerId)
    let events ← enterSession (TableSession.join L.toPrimitives identity advertisement.tableId
      advertisement.creatorPlayerId advertisement.admissionPeerId
      advertisement.admissionAddresses pool.localTicket input.decisionNow input.decisionNonce)
    modify fun s => { s with pool := s.pool.map fun pool => { pool with
      explicitPeers := pool.explicitPeers.erase admissionPeerId } }
    processSessionEvents L input events

/-! ## The tick -/

/-- The tick of the pool and what follows from it. -/
def poolPart : TickM L.ziffle Unit := do
  modify fun s => { s with pool := s.pool.map fun pool =>
    pool.setLocalAdvertisement (s.session.bind fun active => active.advertisement L.toPrimitives) }
  let before ← get
  let decision ← onPool (tickPool L.toPrimitives input.swarm
    { sessionAddresses := input.sessionAddresses, device := identity.device
      certificate := identity.certificate, now := input.poolNow, nowMonotonic := input.poolMonotonic
      ticketNonce := input.ticketNonce, advertisementNonce := input.advertisementNonce
      tableNonce := input.tableNonce })
  processPoolEvents (before.pool.bind fun pool => pool.expiredJoin input.poolMonotonic)
  match decision with
  | none => pure ()
  | some decision => processPoolDecision L identity input decision

/-- The tick of the session and what follows from it. -/
def sessionPart : TickM L.ziffle Unit := do
  let events ← onSession (tick L.toPrimitives identity input.sessionAddresses input.sessionNow
    input.sessionMonotonic input.sessionNonces)
  processSessionEvents L input events

/-- The tick of the hand and what follows from it. -/
def handPart : TickM L.ziffle Unit := do
  onHandRuntime (command L (.tick input.execution))
  processHandEvents L input (processSessionEvents L input)

def HandRuntime.safeLeaveIsStalled {Z : Ziffle} (runtime : HandRuntime Z) : Bool :=
  runtime.active.any fun running => running.hand.safeLeaveRequested ∧
    (running.hand.disconnectedPeers ≠ ∅ ∨ running.hand.actionConflict.isSome)

/-- The last part: a local leave that is due is forced. -/
def forcedPart : TickM L.ziffle Unit := do
  let state ← get
  let events ← onSession (forceLocalLeaveIfDue state.hand.safeLeaveIsStalled input.forcedMonotonic)
  processSessionEvents L input events

/-- The parts of `protocol_tick` before the check of a local leave. -/
def earlierParts : TickM L.ziffle Unit := do
  check (input.sessionAddresses ≠ [])
    "当前没有可写入邀请的拨号地址；请等待监听地址或 Circuit Relay 保留就绪"
  poolPart L identity input
  sessionPart L identity input
  handPart L input

def protocolTick : TickM L.ziffle Unit := do
  earlierParts L identity input
  forcedPart L input

end

end TokenHoldem
