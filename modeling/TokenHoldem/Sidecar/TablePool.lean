import TokenHoldem.Network.TableAdvertisement
import TokenHoldem.Sidecar.NetworkAddress
import TokenHoldem.Sidecar.TableSession.State

/-!
# Whom the pool dials

The part of `token-holdem-sidecar/src/table_pool_runtime.rs` that turns the
endpoints of verified documents into connections: the dialling of ticket
holders, and the choice and dialling of an advertised table. Of the swarm it
reads the local peer id and who is connected; what it asks of the swarm has no
answer it looks at.
-/

namespace TokenHoldem

open Library

def shouldInitiatePeerDial (localPeerId remotePeerId : PeerId) : Bool := localPeerId < remotePeerId

inductive PoolPhase where
  | searching
  /-- Instants are milliseconds of the monotonic clock. -/
  | joining (tableId : TableId) (startedAt : Nat)
  | creating (tableId : TableId)
  | inRoom
deriving DecidableEq

inductive PoolDecision where
  | join (advertisement : TableAdvertisement)
  | create (tableId : TableId) (creatorPlayerId : PlayerId)
deriving DecidableEq

structure LocalTableAdvertisement where
  tableId : TableId
  memberCount : UInt8
  waitingCount : UInt8
  lifecycle : TableLifecycle
  membershipVersion : UInt64
  membershipHash : Bytes32
  creatorPlayerId : PlayerId
  convergenceEligible : Bool
deriving DecidableEq

structure ActivePool where
  localTicket : PoolTicket
  tickets : Std.TreeMap PoolTicketId PoolTicket
  advertisements : Std.TreeMap TableId TableAdvertisement
  rejectedTables : List TableId
  explicitPeers : List PeerId
  searchStartedAt : Nat
  phase : PoolPhase
  localAdvertisement : Option LocalTableAdvertisement
  lastTicketPublishedAt : Option Nat
  lastAdvertisementPublishedAt : Option Nat

/-- What the pool reads of the swarm. -/
structure PoolSwarm where
  localPeerId : PeerId
  isConnected : PeerId → Bool

abbrev PoolM := EStateM SessionError ActivePool

namespace PoolM

def update (change : ActivePool → ActivePool) : PoolM Unit := modify change

/-- `result?`. -/
def lift {α : Type} : Except SessionError α → PoolM α
  | .ok a => pure a
  | .error e => throw e

end PoolM

open PoolM

/-- The texts of the three errors of a dial. -/
structure DialTexts where
  invalid : String
  mismatch : String
  missing : String

section

variable (P : Primitives)

/-- One signed address without the component of the peer itself. -/
def poolDialAddress (texts : DialTexts) (peerId : PeerId) (raw : Bytes) :
    Except SessionError Multiaddr := do
  let address ← okOr (.context texts.invalid .libp2p) (P.multiaddr raw)
  ensure (address.getLast? = some (.p2p peerId)) (.message texts.mismatch)
  return address.dropLast

/-- The address a document is dialled at. -/
def poolDialTarget (texts : DialTexts) (peerId : PeerId) (addresses : List Bytes) :
    Except SessionError Multiaddr := do
  let addresses ← addresses.mapM (poolDialAddress P texts peerId)
  okOr (.message texts.missing) (preferredDialAddress addresses)

/-- The errors of `dial_advertisement`. -/
def advertisementDialTexts : DialTexts where
  invalid := "牌桌广告地址无效"
  mismatch := "牌桌广告地址没有以接入 PeerId 结尾"
  missing := "牌桌广告没有可用的接入地址"

/-- The errors of `synchronize_explicit_pool_peers`. -/
def ticketDialTexts : DialTexts where
  invalid := "公开池票据地址无效"
  mismatch := "公开池票据地址没有以会话 PeerId 结尾"
  missing := "公开池票据没有可用的会话地址"

variable (swarm : PoolSwarm)

def dialAdvertisement (advertisement : TableAdvertisement) : Except SessionError Unit := do
  let peerId ← okOr (.context "牌桌广告的接入 PeerId 无效" .libp2p)
    (P.peerIdFromBytes advertisement.admissionPeerId)
  if swarm.isConnected peerId ∨ peerId = swarm.localPeerId ∨
      shouldInitiatePeerDial swarm.localPeerId peerId = false then return () else
  let _ ← poolDialTarget P advertisementDialTexts peerId advertisement.admissionAddresses
  return ()

/-! ## Ticket holders -/

variable (pool : ActivePool)

/-- Whether the local table takes another player. -/
def ActivePool.acceptsPlayers : Bool :=
  pool.localAdvertisement.any fun advertisement =>
    advertisement.lifecycle ≠ .closing ∧ advertisement.memberCount.toNat < tableCapacity

/-- The body of the loop of `synchronize_explicit_pool_peers`. -/
def synchronizeTicket (ticket : PoolTicket) : PoolM Unit := do
  let pool ← get
  match P.peerIdFromBytes ticket.sessionPeerId with
  | none => pure ()
  | some peerId =>
    if peerId = swarm.localPeerId ∨ peerId ∈ pool.explicitPeers ∨
        shouldInitiatePeerDial swarm.localPeerId peerId = false then pure ()
    else if swarm.isConnected peerId then
      update fun pool => { pool with explicitPeers := peerId :: pool.explicitPeers }
    else
      let _ ← lift (poolDialTarget P ticketDialTexts peerId ticket.sessionAddresses)

/-- The loop of `synchronize_explicit_pool_peers`. -/
def synchronizeTickets : List PoolTicket → PoolM Unit
  | [] => pure ()
  | ticket :: tickets => do
    synchronizeTicket P swarm ticket
    synchronizeTickets tickets

def synchronizeExplicitPoolPeers : PoolM Unit := do
  let pool ← get
  if pool.phase = .inRoom ∨ pool.acceptsPlayers = false then pure ()
  else synchronizeTickets P swarm (values pool.tickets)

/-! ## Advertised tables -/

def isRemoteAdmission (admissionPeerId : Bytes) (localPeerId : PeerId) : Bool :=
  (P.peerIdFromBytes admissionPeerId).any fun peerId => peerId ≠ localPeerId

def compareAdvertisements (left right : TableAdvertisement) : Ordering :=
  (compare right.memberCount.toNat left.memberCount.toNat).then <|
    (compare left.waitingCount.toNat right.waitingCount.toNat).then <|
      compare left.tableId right.tableId

/-- `select_table_advertisement`: the first of the least advertisements. -/
def selectTableAdvertisement (advertisements : List TableAdvertisement) (level : StakeLevel)
    (now : UInt64) : Option TableAdvertisement :=
  let eligible := advertisements.filter fun advertisement =>
    isOk (advertisement.verifyAt P now) ∧ advertisement.level = level ∧
      advertisement.lifecycle ≠ .closing ∧ advertisement.memberCount.toNat < tableCapacity ∧
      advertisement.waitingCount.toNat < waitingCapacity
  match eligible with
  | [] => none
  | first :: rest => some (rest.foldl (fun best advertisement =>
      if compareAdvertisements best advertisement = .gt then advertisement else best) first)

/-- The advertisements `decide_next_action` chooses among. -/
def joinCandidates : List TableAdvertisement :=
  (values pool.advertisements).filter fun advertisement =>
    isRemoteAdmission P advertisement.admissionPeerId swarm.localPeerId ∧
      advertisement.tableId ∉ pool.rejectedTables

/-- The advertisements `decide_singleton_convergence` chooses among. -/
def convergenceCandidates (own : LocalTableAdvertisement) : List TableAdvertisement :=
  (joinCandidates P swarm pool).filter fun advertisement =>
    advertisement.tableId ≠ own.tableId ∧
      (2 ≤ advertisement.memberCount.toNat ∨ advertisement.tableId < own.tableId)

def decideSingletonConvergence (now : UInt64) : Except SessionError (Option PoolDecision) :=
  match pool.localAdvertisement with
  | none => return none
  | some own =>
    if own.convergenceEligible = false then return none else
    match selectTableAdvertisement P (convergenceCandidates P swarm pool own)
        pool.localTicket.level now with
    | none => return none
    | some advertisement => do
      dialAdvertisement P swarm advertisement
      return some (.join advertisement)

/-- The loop of `rank_pool_tickets`: of each player the ticket with the lowest id. -/
def ticketsByPlayer (level : StakeLevel) (now : UInt64) (tickets : List PoolTicket) :
    Std.TreeMap PlayerId PoolTicket :=
  tickets.foldl (fun byPlayer ticket =>
    if isOk (ticket.verifyAt P now) = false ∨ ticket.level ≠ level then byPlayer
    else match byPlayer[ticket.playerId]? with
    | none => byPlayer.insert ticket.playerId ticket
    | some current =>
      if ticket.id P < current.id P then byPlayer.insert ticket.playerId ticket else byPlayer) ∅

def rankPoolTickets (tickets : List PoolTicket) (level : StakeLevel) (now : UInt64) :
    List PoolTicket :=
  sortByKey (PoolTicket.id P) (values (ticketsByPlayer P level now tickets))

/-- `TableId::derive`. -/
def deriveTableId (creator : PlayerId) (device : DevicePublicKey) (nonce : Bytes32) : TableId :=
  ⟨P.hash (textBytes "token-holdem/table-id/v1\x00" ++ creator.asBytes ++ device.asBytes
    ++ nonce.toBytes)⟩

/-- `FIRST_CREATOR_DELAY`, in milliseconds. -/
def firstCreatorDelay : Nat := 4000

/-- `CREATOR_FALLBACK_INTERVAL`, in milliseconds. -/
def creatorFallbackInterval : Nat := 2000

/-- `decide_next_action`, with the random number a new table is named after. -/
def decideNextAction (now : UInt64) (nowMonotonic : Nat) (nonce : Bytes32) :
    Except SessionError (Option PoolDecision) :=
  match selectTableAdvertisement P (joinCandidates P swarm pool) pool.localTicket.level now with
  | some advertisement => do
    dialAdvertisement P swarm advertisement
    return some (.join advertisement)
  | none => do
    let rank ← okOr (.message "本地公开池票据不在确定性候选排序中")
      ((rankPoolTickets P (values pool.tickets) pool.localTicket.level now).findIdx? fun ticket =>
        ticket.id P = pool.localTicket.id P)
    ensure (rank < 2 ^ 32) (.message "公开池候选排名超出范围")
    -- four seconds and two for each of at most `u32::MAX` ranks fit a `Duration`
    if nowMonotonic - pool.searchStartedAt < firstCreatorDelay + creatorFallbackInterval * rank then
      return none
    return some (.create
      (deriveTableId P pool.localTicket.playerId pool.localTicket.devicePublicKey nonce)
      pool.localTicket.playerId)

/-! ## The tick -/

def ticketLifetimeMs : UInt64 := 30 * 60 * 1000

def advertisementLifetimeMs : UInt64 := 20000

def ticketRenewalMarginMs : UInt64 := 5 * 60 * 1000

/-- `TICKET_REPUBLISH_INTERVAL` and `ADVERTISEMENT_REPUBLISH_INTERVAL`, in milliseconds. -/
def poolRepublishInterval : Nat := 5000

/-- `JOIN_ATTEMPT_TIMEOUT`, in milliseconds. -/
def joinAttemptTimeout : Nat := 20000

/-- `issue_ticket`: a ticket of the local peer, which is valid for half an hour. -/
def issueTicket (level : StakeLevel) (buyIn : Chips) (sessionAddresses : List Bytes)
    (device : DeviceIdentity) (certificate : DeviceCertificate) (now : UInt64)
    (nonce : FixedBytes 16) : Except SessionError PoolTicket := do
  let expiresAt ← okOr (.message "公开池票据有效期溢出") (checkedAdd now ticketLifetimeMs)
  (PoolTicket.issue P (P.peerIdToBytes swarm.localPeerId) sessionAddresses level buyIn now
    expiresAt nonce device certificate).mapError fun error =>
      .context "无法签发公开池票据" (.pool error)

def issueAdvertisement (ticket : PoolTicket) (snapshot : LocalTableAdvertisement)
    (sessionAddresses : List Bytes) (device : DeviceIdentity) (certificate : DeviceCertificate)
    (now : UInt64) (nonce : FixedBytes 16) : Except SessionError TableAdvertisement := do
  let expiresAt ← okOr (.message "牌桌广告有效期溢出") (checkedAdd now advertisementLifetimeMs)
  (TableAdvertisement.issue P snapshot.tableId ticket.level snapshot.memberCount
    snapshot.waitingCount snapshot.lifecycle snapshot.membershipVersion snapshot.membershipHash
    snapshot.creatorPlayerId ticket.sessionPeerId sessionAddresses now expiresAt nonce device
    certificate).mapError fun error => .context "无法签发牌桌广告" (.pool error)

/-- What a tick is given besides the pool and the swarm. -/
structure PoolTick where
  sessionAddresses : List Bytes
  device : DeviceIdentity
  certificate : DeviceCertificate
  now : UInt64
  nowMonotonic : Nat
  ticketNonce : FixedBytes 16
  advertisementNonce : FixedBytes 16
  tableNonce : Bytes32

variable (input : PoolTick)

/-- The documents that no longer verify are dropped. -/
def ActivePool.retainVerified (pool : ActivePool) (now : UInt64) : ActivePool := { pool with
  tickets := pool.tickets.filter fun _ ticket => isOk (ticket.verifyAt P now)
  advertisements := pool.advertisements.filter fun _ advertisement =>
    isOk (advertisement.verifyAt P now) }

/-- The renewal of the local ticket in a tick. -/
def renewLocalTicket : PoolM Unit := do
  let pool ← get
  if saturatingSub pool.localTicket.expiresAtUnixMs input.now ≤ ticketRenewalMarginMs then
    let renewed ← lift (issueTicket P swarm pool.localTicket.level pool.localTicket.requestedBuyIn
      input.sessionAddresses input.device input.certificate input.now input.ticketNonce)
    update fun pool => { pool with
      tickets := (pool.tickets.erase (pool.localTicket.id P)).insert (renewed.id P) renewed
      localTicket := renewed
      searchStartedAt := input.nowMonotonic
      lastTicketPublishedAt := none }
  else pure ()

/-- Whether something published at `last` is published again. -/
def republishDue (last : Option Nat) (nowMonotonic : Nat) : Bool :=
  last.all fun last => poolRepublishInterval ≤ nowMonotonic - last

def PoolPhase.isLooking : PoolPhase → Bool
  | .searching | .joining _ _ => true
  | .creating _ | .inRoom => false

/-- The publications of a tick, which fail only when the local advertisement
cannot be signed. -/
def publishDirectory : PoolM Unit := do
  update fun pool =>
    if republishDue pool.lastTicketPublishedAt input.nowMonotonic ∧ pool.phase.isLooking then
      { pool with lastTicketPublishedAt := some input.nowMonotonic }
    else pool
  let pool ← get
  match pool.localAdvertisement with
  | none => pure ()
  | some snapshot =>
    if republishDue pool.lastAdvertisementPublishedAt input.nowMonotonic then
      let advertisement ← lift (issueAdvertisement P pool.localTicket snapshot
        input.sessionAddresses input.device input.certificate input.now input.advertisementNonce)
      update fun pool => { pool with
        advertisements := pool.advertisements.insert advertisement.tableId advertisement
        lastAdvertisementPublishedAt := some input.nowMonotonic }
    else pure ()

/-- A table that has not let the player in for too long is not tried again. -/
def ActivePool.expireJoinAttempt (pool : ActivePool) (nowMonotonic : Nat) : ActivePool :=
  match pool.phase with
  | .joining tableId startedAt =>
    if joinAttemptTimeout ≤ nowMonotonic - startedAt then
      { pool with rejectedTables := tableId :: pool.rejectedTables, phase := .searching }
    else pool
  | _ => pool

/-- What a tick decides in each phase. -/
def decideTick (pool : ActivePool) : Except SessionError (Option PoolDecision) :=
  match pool.phase with
  | .searching => decideNextAction P swarm pool input.now input.nowMonotonic input.tableNonce
  | .inRoom => decideSingletonConvergence P swarm pool input.now
  | .joining _ _ | .creating _ => return none

/-- The phase a decision leads to. -/
def PoolDecision.phase (decision : PoolDecision) (nowMonotonic : Nat) : PoolPhase :=
  match decision with
  | .join advertisement => .joining advertisement.tableId nowMonotonic
  | .create tableId _ => .creating tableId

/-- `TablePoolRuntime::tick` on an active pool. -/
def tickPool : PoolM (Option PoolDecision) := do
  update fun pool => pool.retainVerified P input.now
  synchronizeExplicitPoolPeers P swarm
  renewLocalTicket P swarm input
  publishDirectory P input
  update fun pool => pool.expireJoinAttempt input.nowMonotonic
  let decision ← lift (decideTick P swarm input (← get))
  match decision with
  | none => return none
  | some decision =>
    update fun pool => { pool with phase := decision.phase input.nowMonotonic }
    return some decision

end

end TokenHoldem
