import TokenHoldem.Sidecar.HandRuntime.Actions

/-!
# Running a hand

`ActiveHand::drive`, the handlers of messages, and the methods of `HandRuntime`
that work on the active hand. A `HandCommand` is one call from outside; `HandRun`
collects the states that a hand can be in after any sequence of calls, whether
they succeed or fail, with everything that was sent and done on the way.

A message that arrives before its hand is kept by `HandRuntime` and handed over
when the hand starts, which is a later call with the same message.
-/

namespace TokenHoldem

open Library TracedM

variable (L : HandPrimitives)

/-! ## Driving a hand -/

/-- The last part of `drive`: `ensure_turn_started`. -/
def ensureTurnStarted (now : UInt64) : ActiveHandM L.ziffle Unit := do
  let active ← getActive
  if active.StartsTurn L then
    update fun active => { active with turnStartedAtUnixMs := some now }
    let active ← getActive
    expect (active.stateEvent L.toPrimitives)
  else pure ()

variable (execution : HandExecutionContext L.ziffle)

def drive : ActiveHandM L.ziffle Unit := do
  let active ← getActive
  if active.actionConflict.isSome then pure ()
  else
    aggregateKeys L
    runShuffles L execution.draws
    distributeHoleCards L execution.draws
    dealLocalCards L
    tryCompletePublicReveal L execution
    ensureTurnStarted L execution.nowUnixMs

/-! ## Messages -/

/-- The arm of `handle_public_message` for a key announcement. -/
def acceptKeyAnnouncement (seat : UInt8) (announcement : KeyAnnouncement) :
    ActiveHandM L.ziffle Unit := do
  let active ← getActive
  let _ ← expect (withContext "临时密钥所有权证明无效" .mentalPoker
    (active.engine.verifyKeyAnnouncement L.ziffle announcement))
  let announcements ← expect
    (insertConsistent active.announcements seat announcement "临时密钥")
  update fun active => { active with announcements := announcements }
  expect (active.progress announcements.size)

/-- The arm of `handle_public_message` for a shuffle. -/
def acceptShuffle (seat : UInt8) (packet : ShufflePacket) : ActiveHandM L.ziffle Unit := do
  let active ← getActive
  let packets ← expect (insertConsistent active.shufflePackets seat packet "洗牌证明")
  update fun active => { active with shufflePackets := packets }

/-- The check of a public share. -/
def ActiveHand.verifyCommunityShare (active : ActiveHand L.ziffle) (seat cardIndex : UInt8)
    (packet : RevealSharePacket) : Except HandError Unit := do
  let index ← seatIndex "公共份额座位无效" seat
  let keys ← okOr (.message "公共份额到达时临时密钥尚未聚合") active.verifiedKeys
  let key ← okOr (.message "公共份额座位超出范围") keys[index]?
  let deck ← okOr (.message "公共份额到达时最终牌组尚未就绪") active.deck
  let _ ← withContext "公共解密份额证明无效" .mentalPoker
    (active.engine.verifyRevealShare L.ziffle deck cardIndex.toNat key packet)
  return ()

/-- The arm of `handle_public_message` for a public share. -/
def acceptCommunityShare (seat cardIndex : UInt8) (packet : RevealSharePacket) :
    ActiveHandM L.ziffle Unit := do
  let active ← getActive
  expect (active.verifyCommunityShare L seat cardIndex packet)
  let shares ← expect
    (insertConsistent (active.publicShares.of cardIndex) seat packet "公共解密份额")
  update fun active => { active with
    publicShares := active.publicShares.insert cardIndex shares }

/-- The arm of `handle_public_message` for readiness. -/
def acceptDealReady (seat : UInt8) : ActiveHandM L.ziffle Unit := do
  let active ← getActive
  if seat ∈ active.readySeats then pure ()
  else
    update fun active => { active with readySeats := insert seat active.readySeats }
    let active ← getActive
    expect (active.progress active.readySeats.card)
    if active.AllPlayersReady ∧ active.hand.isSome then expect (active.stateEvent L.toPrimitives)
    else pure ()

/-- The `match message` of `handle_public_message`. -/
def acceptPublicMessage : HandPublicMessage → ActiveHandM L.ziffle Unit
  | .keyAnnouncement _ seat announcement => acceptKeyAnnouncement L seat announcement
  | .shuffle _ seat packet => acceptShuffle L seat packet
  | .communityRevealShare _ seat cardIndex packet => acceptCommunityShare L seat cardIndex packet
  | .dealReady _ seat => acceptDealReady L seat
  | .receiptSignature _ receipt signature =>
    acceptReceiptSignature L receipt signature execution.nowUnixMs
  | .actionCommitted _ sequence action => acceptOrDeferRemoteAction L execution sequence action

def handlePublicMessage (source : Option PeerId) (message : HandPublicMessage) :
    ActiveHandM L.ziffle Unit := do
  let active ← getActive
  expect (active.verifyScope message.scope)
  expect (active.verifyPublicSource source message)
  acceptPublicMessage L execution message
  drive L execution
  commitDeferredActions L execution
  if isRelayablePublicMessage message then record (.relayed message) else pure ()

/-- The checks and the insertion of `HandRuntime::handle_private`. -/
def acceptHoleShare (source : PeerId) (message : HandPrivateMessage) :
    ActiveHandM L.ziffle Unit := do
  let active ← getActive
  expect (active.verifyScope message.scope)
  expect (active.verifySeatSource message.fromSeat source)
  check (message.toSeat.toNat = active.table.localSeat + 1)
    (.message "私密底牌份额收件座位不是本机")
  check (message.cardIndex ∈ holeIndexList active.table.localSeat)
    (.message "私密底牌份额引用了不属于本机的牌")
  let shares ← expect (insertConsistent (active.holeShares.of message.cardIndex)
    message.fromSeat message.packet "私密底牌份额")
  update fun active => { active with
    holeShares := active.holeShares.insert message.cardIndex shares }

def handlePrivate (source : PeerId) (message : HandPrivateMessage) : ActiveHandM L.ziffle Unit := do
  acceptHoleShare L source message
  drive L execution

/-! ## The other calls -/

/-- `HandRuntime::tick`, without the maintenance of the connections. -/
def tickHand : ActiveHandM L.ziffle Unit := do
  drive L execution
  let active ← getActive
  match ← expect (active.automaticLocalAction L execution.nowUnixMs) with
  | none => pure ()
  | some action =>
    commitLocalAction L execution action
    drive L execution

/-- The fields that the user interface sends with an action. -/
structure HandActionPrecondition where
  tableId : TableId
  handNumber : UInt64
  sequence : Nat
  publicStateHash : Bytes32
deriving DecidableEq

def submitAction (expected : HandActionPrecondition) (action : PlayerAction) :
    ActiveHandM L.ziffle Unit := do
  let active ← getActive
  let stateHash ← expect (active.publicStateHash L.toPrimitives)
  check (expected = { tableId := active.table.tableId, handNumber := active.handNumber,
                      sequence := active.sequence, publicStateHash := stateHash })
    (.message "手牌状态已变化，已拒绝过期动作；请查看最新牌桌后重试")
  check (active.safeLeaveRequested = false)
    (.message "已请求安全离桌，本手牌将由客户端在轮到你时自动弃牌")
  commitLocalAction L execution action
  drive L execution

/-- The event after a change of the connections. -/
def stateEventIfDealt : ActiveHandM L.ziffle Unit := do
  let active ← getActive
  if active.hand.isSome then expect (active.stateEvent L.toPrimitives) else pure ()

def peerDisconnected (peerId : PeerId) : ActiveHandM L.ziffle Unit := do
  let active ← getActive
  if peerId ∉ active.table.peerIds ∨ active.table.peerIds[active.table.localSeat]? = some peerId ∨
      peerId ∈ active.disconnectedPeers then
    pure ()
  else
    update fun active => { active with
      disconnectedPeers := insert peerId active.disconnectedPeers
      turnStartedAtUnixMs := none }
    stateEventIfDealt L

def peerConnected (peerId : PeerId) : ActiveHandM L.ziffle Unit := do
  let active ← getActive
  if peerId ∉ active.disconnectedPeers then pure ()
  else
    update fun active => { active with
      disconnectedPeers := active.disconnectedPeers.erase peerId }
    stateEventIfDealt L

def requestSafeLeave : ActiveHandM L.ziffle Unit :=
  update fun active => { active with safeLeaveRequested := true }

/-! ## Starting a hand -/

/-- The digits of an identifier in hexadecimal. -/
def hexDigits (bytes : Bytes) : Bytes :=
  bytes.flatMap fun byte =>
    let digit := fun value : UInt8 => if value < 10 then 48 + value else 87 + value
    [digit (byte / 16), digit (byte % 16)]

variable (table : ReadyTable)

/-- The context of the proofs of one hand. -/
def transcriptContext : Bytes :=
  textBytes "token-holdem/table/" ++ hexDigits table.tableId.asBytes ++ textBytes "/hand/"
    ++ textBytes (toString table.handNumber)

/-- The fields of a new hand. -/
def freshHand (engine : MentalPokerEngine) (localKey : PlayerKeyMaterial L.ziffle)
    (localSeat : UInt8) : ActiveHand L.ziffle where
  table := table
  handNumber := table.handNumber
  dealerIndex := table.dealerIndex
  engine := engine
  localKey := localKey
  announcements := (∅ : Std.TreeMap _ _).insert localSeat localKey.announcement
  verifiedKeys := none
  aggregateKey := none
  shufflePackets := ∅
  shuffleStage := 0
  deck := none
  holeDistributionStarted := false
  holeShares := ∅
  localHoleCards := none
  readySeats := ∅
  publicShares := ∅
  publicCards := ∅
  pendingReveal := none
  hand := none
  sequence := 0
  committedActions := ∅
  pendingActions := ∅
  actionConflict := none
  mentalTranscript := .empty
  actionTranscript := []
  lastActionAtUnixMs := none
  turnStartedAtUnixMs := none
  receiptConsensus := none
  pendingReceiptSignatures := ∅
  finalizedReceipt := none
  safeLeaveRequested := false
  disconnectedPeers := ∅
  settled := false

/-- The state that `initialize_hand` builds, with a fresh key of the local seat. -/
def initialHand (seed : L.ziffle.Seed) : Except HandError (ActiveHand L.ziffle) := do
  ensure (table.handNumber ≠ 0) (.message "手牌编号必须从 1 开始")
  ensure (table.dealerIndex < table.players.length) (.message "庄位超出牌桌座位范围")
  let engine ← withContext "无法初始化 Mental Poker 引擎" .mentalPoker
    (MentalPokerEngine.new (transcriptContext table))
  let localKey := engine.generateKeys L.ziffle seed
  let localSeat ← okOr (.message "本地座位超出范围") (tryU8 (table.localSeat + 1))
  return freshHand L table engine localKey localSeat

theorem initialHand_eq_ok {L : HandPrimitives} {table : ReadyTable} {seed : L.ziffle.Seed}
    {active : ActiveHand L.ziffle} (h : initialHand L table seed = .ok active) :
    ∃ engine localSeat, tryU8 (table.localSeat + 1) = some localSeat ∧
      active = freshHand L table engine (engine.generateKeys L.ziffle seed) localSeat := by
  obtain ⟨-, h⟩ := ensure_bind_eq_ok.mp h
  obtain ⟨-, h⟩ := ensure_bind_eq_ok.mp h
  obtain ⟨engine, -, h⟩ := bind_eq_ok.mp h
  obtain ⟨localSeat, hseat, h⟩ := okOr_bind_eq_ok.mp h
  exact ⟨engine, localSeat, hseat, (Except.ok.inj h).symm⟩

/-- The rest of `initialize_hand`: the own key is announced. -/
def beginHand : ActiveHandM L.ziffle Unit := do
  let active ← getActive
  let localSeat ← expect active.localSeatU8
  queuePublicMessage L (.keyAnnouncement active.scope localSeat active.localKey.announcement)
  let _ ← expect (okOr (.message "庄位超出范围") (tryU8 (active.dealerIndex + 1)))
  expect (active.progress active.announcements.size)
  drive L execution

/-! ## Runs -/

/-- One call from outside. -/
inductive HandCommand (Z : Ziffle) where
  | tick (execution : HandExecutionContext Z)
  | publicMessage (execution : HandExecutionContext Z) (source : Option PeerId)
      (message : HandPublicMessage)
  | privateMessage (execution : HandExecutionContext Z) (source : PeerId)
      (message : HandPrivateMessage)
  | submitAction (execution : HandExecutionContext Z) (expected : HandActionPrecondition)
      (action : PlayerAction)
  | peerDisconnected (peerId : PeerId)
  | peerConnected (peerId : PeerId)
  | requestSafeLeave

def HandCommand.run : HandCommand L.ziffle → ActiveHandM L.ziffle Unit
  | .tick execution => tickHand L execution
  | .publicMessage execution source message => handlePublicMessage L execution source message
  | .privateMessage execution source message => handlePrivate L execution source message
  | .submitAction execution expected action => TokenHoldem.submitAction L execution expected action
  | .peerDisconnected peerId => TokenHoldem.peerDisconnected L peerId
  | .peerConnected peerId => TokenHoldem.peerConnected L peerId
  | .requestSafeLeave => TokenHoldem.requestSafeLeave L

/-- The hand after a call, and what the call has done. -/
def HandCommand.after (command : HandCommand L.ziffle) (active : ActiveHand L.ziffle) :
    TracedHand L.ziffle :=
  endState ((command.run L).run { active, trace := [] })

/-- The states of one hand at one table, with what has been done to get there. -/
inductive HandRun (table : ReadyTable) : List (HandEffect L.ziffle) → ActiveHand L.ziffle → Prop
  | start {execution : HandExecutionContext L.ziffle} {seed : L.ziffle.Seed}
      {active : ActiveHand L.ziffle}
      {started : TracedHand L.ziffle} :
      initialHand L table seed = .ok active →
      (beginHand L execution).run { active, trace := [] } = .ok () started →
      HandRun table started.trace started.active
  | call {history : List (HandEffect L.ziffle)} {active : ActiveHand L.ziffle}
      (command : HandCommand L.ziffle) : HandRun table history active →
      HandRun table (history ++ (command.after L active).trace) (command.after L active).active

end TokenHoldem
