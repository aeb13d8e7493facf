import TokenHoldem.Sidecar.HandRuntime.Dealing

/-!
# Actions, reveals and settlement

The methods of `ActiveHand` that commit actions to the betting state, turn over
the cards that the betting calls for, and settle the hand.
-/

namespace TokenHoldem

open Library TracedM

variable (L : HandPrimitives)

/-- A method of the betting state: what it has changed stays also when it fails. -/
def onHand {Z : Ziffle} {α : Type} (missing text : String) (method : HandM α) :
    ActiveHandM Z α := do
  let active ← getActive
  let hand ← expect (active.betting missing)
  match method.run hand with
  | .ok value hand => do
    update fun active => { active with hand := some hand }
    return value
  | .error error hand => do
    update fun active => { active with hand := some hand }
    throw (.context text (.holdem error))

namespace ActiveHand

variable (active : ActiveHand L.ziffle)

/-! ## Receipts -/

/-- The outcome that a receipt records for one player of a settlement. -/
def receiptOutcome (settled : PlayerSettlement) : Except HandError HandOutcome := do
  let index ← okOr (.message "结算玩家不属于当前牌桌")
    (active.table.players.findIdx? (· = settled.playerId))
  let devicePublicKey ← okOr (.message "结算玩家缺少设备映射") active.table.devicePublicKeys[index]?
  return { playerId := settled.playerId, devicePublicKey,
           startingStack := settled.startingStack, endingStack := settled.endingStack }

def buildReceipt (settlement : HoldemSettlement) : Except HandError HandReceipt := do
  let settledAtUnixMs ← okOr (.message "已结算手牌缺少最后动作时间") active.lastActionAtUnixMs
  let outcomes ← settlement.players.mapM (active.receiptOutcome L)
  withContext "无法构造确定性结算凭证" .receipt
    (HandReceipt.settle (MatchId.ofTable active.table.tableId) active.handNumber
      active.table.level.id (active.transcriptHashBytes L.toPrimitives) settledAtUnixMs outcomes)

/-- The check of one seat in `validate_receipt_header`. -/
def checkReceiptSeat (receipt : HandReceipt) (entry : PlayerId × Nat) : Except HandError Unit := do
  let outcome ← okOr (.message "结算凭证缺少当前牌桌玩家") (receipt.outcomeFor entry.1)
  let device ← okOr outOfBounds active.table.devicePublicKeys[entry.2]?
  let buyIn ← okOr outOfBounds active.table.buyIns[entry.2]?
  ensure (outcome.devicePublicKey = device ∧ outcome.startingStack = buyIn)
    (.message "结算凭证中的设备或起始筹码与牌桌承诺不一致")

def validateReceiptHeader (receipt : HandReceipt) : Except HandError Unit := do
  ensure (receipt.matchId = MatchId.ofTable active.table.tableId ∧
    receipt.handNumber = active.handNumber ∧ receipt.stakeLevelId = active.table.level.id)
    (.message "结算凭证不属于当前牌桌、手牌或级别")
  ensure (receipt.outcomes.length = active.playerCount)
    (.message "结算凭证参与者数量与当前牌桌不一致")
  checkAll (active.checkReceiptSeat L receipt) active.table.players.zipIdx

/-- `receipt_progress`: the event can be built. -/
def receiptProgress : Except HandError Unit := do
  let consensus ← okOr (.message "结算共识尚未启动") active.receiptConsensus
  let _ ← okOr (.message "签名进度超出范围") (tryU8 consensus.signatures.size)
  let _ ← okOr (.message "玩家数超出范围") (tryU8 active.playerCount)
  return ()

/-! ## Showdown -/

/-- The board of a showdown. -/
def showdownBoard : Except HandError Board := do
  let indices := boardIndices active.playerCount
  let card := fun index : UInt8 => okOr (.message "摊牌缺少公共牌") active.publicCards[index]?
  let first ← card (indices.get 0)
  let second ← card (indices.get 1)
  let third ← card (indices.get 2)
  let fourth ← card (indices.get 3)
  let fifth ← card (indices.get 4)
  return #v[first, second, third, fourth, fifth]

/-- The hole cards of one seat at the showdown, if it has not folded. -/
def showSeat (holes : Std.TreeMap PlayerId (Card × Card)) (entry : SeatState × Nat) :
    Except HandError (Std.TreeMap PlayerId (Card × Card)) :=
  if entry.1.status = .folded then return holes
  else do
    let indices := holeIndices entry.2
    let first ← okOr (.message "摊牌缺少玩家底牌") active.publicCards[indices.1]?
    let second ← okOr (.message "摊牌缺少玩家底牌") active.publicCards[indices.2]?
    return holes.insert entry.1.playerId (first, second)

/-- The hole cards of all contenders. -/
def showdownHoles (hand : HoldemHand) : Except HandError (Std.TreeMap PlayerId (Card × Card)) :=
  hand.seats.zipIdx.foldlM (active.showSeat L) ∅

/-- The shares of all seats for one card enter the transcript, in seat order. -/
def appendShares (packets : Std.TreeMap UInt8 RevealSharePacket) :
    Except HandError ProtocolTranscript :=
  (List.range' 1 active.playerCount).foldlM (fun transcript index => do
    let seat ← seatU8 index
    let packet ← okOr (.message "公共份额集合缺少座位") packets[seat]?
    return transcript.appendRevealShare packet) active.mentalTranscript

/-! ## Actions -/

/-- The player and the device of the seat of an action. -/
def actor (seat : UInt8) : Except HandError (PlayerId × DevicePublicKey) := do
  let index ← seatIndex "动作座位无效" seat
  let playerId ← okOr (.message "动作座位超出范围") active.table.players[index]?
  let devicePublicKey ← okOr (.message "动作设备映射缺失") active.table.devicePublicKeys[index]?
  return (playerId, devicePublicKey)

def automaticLocalAction (now : UInt64) : Except HandError (Option PlayerAction) :=
  if active.disconnectedPeers ≠ ∅ ∨ active.actionConflict.isSome ∨ active.pendingReveal.isSome ∨
      active.settled ∨ ¬active.AllPlayersReady then
    return none
  else do
    let hand ← active.betting "下注状态缺失"
    if hand.nextPlayer ≠ some active.localPlayer then return none
    else if active.safeLeaveRequested then return some .fold
    else match active.turnStartedAtUnixMs with
      | none => return none
      | some startedAt =>
        if now < saturatingAdd startedAt turnActionTimeoutMs then return none
        else do
          let toCall ← withContext "无法计算超时自动动作的跟注额" .holdem
            (hand.amountToCall active.localPlayer)
          return some (timeoutAction toCall)

/-- Whether `ensure_turn_started` starts the clock of the turn. -/
def StartsTurn : Prop :=
  active.turnStartedAtUnixMs.isNone ∧ active.disconnectedPeers = ∅ ∧
    active.actionConflict.isNone ∧ active.pendingReveal.isNone ∧ active.settled = false ∧
    active.AllPlayersReady ∧ (active.hand.bind HoldemHand.nextPlayer).isSome
deriving Decidable

end ActiveHand

/-! ## Settlement -/

def tryFinalizeReceipt (now : UInt64) : ActiveHandM L.ziffle Unit := do
  let active ← getActive
  match active.receiptConsensus with
  | none => pure ()
  | some consensus =>
    if consensus.finalized then pure ()
    else
      let (consensus, receipt) ← expect (consensus.tryFinalize L.toPrimitives now)
      update fun active => { active with receiptConsensus := some consensus }
      match receipt with
      | none => pure ()
      | some receipt =>
        let _ ← expect (okOr (.message "联合签名凭证缺少本地玩家")
          (receipt.receipt.outcomeFor active.localPlayer))
        let _ ← expect (okOr (.message "签名数超出范围") (tryU8 receipt.signatures.length))
        update fun active => { active with finalizedReceipt := some receipt }
        record (.finalized receipt)

def acceptReceiptSignature (receipt : HandReceipt) (signature : ParticipantSignature)
    (now : UInt64) : ActiveHandM L.ziffle Unit := do
  let active ← getActive
  expect (active.validateReceiptHeader L receipt)
  expect (withContext "结算凭证参与者签名无效" .signature
    (signature.verifyFor L.toPrimitives receipt now))
  match active.receiptConsensus with
  | none =>
    let pending ← expect (insertConsistent active.pendingReceiptSignatures signature.playerId
      (receipt, signature) "待结算签名")
    update fun active => { active with pendingReceiptSignatures := pending }
  | some consensus =>
    let (consensus, inserted) ← expect (consensus.accept L.toPrimitives receipt signature now)
    update fun active => { active with receiptConsensus := some consensus }
    if inserted then
      let active ← getActive
      expect (active.receiptProgress L)
      tryFinalizeReceipt L now
    else tryFinalizeReceipt L now

variable (execution : HandExecutionContext L.ziffle)

def finishSettlement (settlement : HoldemSettlement) : ActiveHandM L.ziffle Unit := do
  let active ← getActive
  record (.settling active execution)
  update fun active => { active with settled := true, turnStartedAtUnixMs := none }
  let receipt ← expect (active.buildReceipt L settlement)
  let (consensus, signature) ← expect (ReceiptConsensus.start L.toPrimitives receipt
    execution.device execution.certificate execution.nowUnixMs)
  update fun active => { active with receiptConsensus := some consensus }
  queuePublicMessage L (.receiptSignature active.scope receipt signature)
  let active ← getActive
  expect (active.stateEvent L.toPrimitives)
  expect (active.receiptProgress L)
  update fun active => { active with pendingReceiptSignatures := ∅ }
  forEach (fun entry => attempt (acceptReceiptSignature L entry.1 entry.2 execution.nowUnixMs))
    (values active.pendingReceiptSignatures)
  tryFinalizeReceipt L execution.nowUnixMs

/-! ## Turning over cards -/

/-- The loop of `request_public_reveal`: a share for each card that has none of the
own yet. -/
def createPublicShares (draws : Draws L.ziffle) (localSeat : UInt8)
    (deck : VerifiedDeck L.ziffle) : List UInt8 → ActiveHandM L.ziffle (List HandPublicMessage)
  | [] => pure []
  | cardIndex :: rest => do
    let active ← getActive
    if ((active.publicShares.of cardIndex)[localSeat]?).isSome then
      createPublicShares draws localSeat deck rest
    else
      let packet ← expect (withContext "无法生成公共牌解密份额" .mentalPoker
        (active.engine.createRevealShare L.ziffle (draws.publicShare cardIndex) deck
          cardIndex.toNat active.localKey))
      record (.createdPublicShare active cardIndex packet)
      update fun active => { active with
        publicShares := active.publicShares.insert cardIndex
          ((active.publicShares.of cardIndex).insert localSeat packet) }
      let outbound ← createPublicShares draws localSeat deck rest
      return .communityRevealShare active.scope localSeat cardIndex packet :: outbound

/-- `indices.sort_unstable(); indices.dedup();`. -/
def sortedIndices (indices : List UInt8) : List UInt8 := indices.dedup.insertionSort (· ≤ ·)

def requestPublicReveal (draws : Draws L.ziffle) (indices : List UInt8) (reason : RevealReason) :
    ActiveHandM L.ziffle Unit := do
  let indices := sortedIndices indices
  let active ← getActive
  let deck ← expect (okOr (.message "最终牌组尚未就绪") active.deck)
  let localSeat ← expect active.localSeatU8
  let outbound ← createPublicShares L draws localSeat deck indices
  forEach (queuePublicMessage L) outbound
  update fun active => { active with pendingReveal := some { reason, indices } }

/-- The loop of `try_complete_public_reveal`; `false` when a card still lacks shares. -/
def revealCards : List UInt8 → ActiveHandM L.ziffle Bool
  | [] => pure true
  | cardIndex :: rest => do
    let active ← getActive
    if (active.publicCards[cardIndex]?).isSome then revealCards rest
    else match active.publicShares[cardIndex]? with
      | none => pure false
      | some packets =>
        if packets.size ≠ active.playerCount then pure false
        else
          let keys ← expect (okOr (.message "缺少已验证临时密钥") active.verifiedKeys)
          let deck ← expect (okOr (.message "最终牌组尚未就绪") active.deck)
          let shares ← expect (active.verifiedShares L keys deck packets cardIndex
            "公共份额集合缺少座位" "公共牌解密份额证明无效")
          let card ← expect (withContext "无法聚合公共牌解密份额" .mentalPoker
            (MentalPokerEngine.revealHoldemCard L.ziffle deck cardIndex.toNat shares
              active.playerCount))
          let transcript ← expect (active.appendShares L packets)
          update fun active => { active with
            mentalTranscript := transcript
            publicCards := active.publicCards.insert cardIndex card }
          revealCards rest

/-- The end of `try_complete_public_reveal` for a showdown. -/
def settleAtShowdown : ActiveHandM L.ziffle Unit := do
  let active ← getActive
  let board ← expect (active.showdownBoard L)
  let hand ← expect (active.betting "下注状态缺失")
  let holes ← expect (active.showdownHoles L hand)
  record (.showdown active)
  let settlement ← onHand "下注状态缺失" "摊牌结算失败" (settleShowdown board fun p => holes[p]?)
  finishSettlement L execution settlement

def tryCompletePublicReveal : ActiveHandM L.ziffle Unit := do
  let active ← getActive
  match active.pendingReveal with
  | none => pure ()
  | some pending =>
    let complete ← revealCards L pending.indices
    let active ← getActive
    if complete = true ∧
        pending.indices.all (fun cardIndex => (active.publicCards[cardIndex]?).isSome) = true then
      update fun active => { active with pendingReveal := none }
      match pending.reason with
      | .street =>
        update fun active => { active with turnStartedAtUnixMs := some execution.nowUnixMs }
        let active ← getActive
        expect (active.stateEvent L.toPrimitives)
      | .showdown => settleAtShowdown L execution
    else pure ()

/-! ## Committing actions -/

def handleActionOutcome : ActionOutcome → ActiveHandM L.ziffle Unit
  | .waitingFor _ => do
    let active ← getActive
    expect (active.stateEvent L.toPrimitives)
  | .streetAdvanced street _ => do
    update fun active => { active with turnStartedAtUnixMs := none }
    let active ← getActive
    let indices ← expect (streetIndices active.playerCount street)
    requestPublicReveal L execution.draws indices .street
    let active ← getActive
    expect (active.stateEvent L.toPrimitives)
  | .showdownReady => do
    update fun active => { active with turnStartedAtUnixMs := none }
    let active ← getActive
    let hand ← expect (active.betting "下注状态缺失")
    requestPublicReveal L execution.draws (showdownIndices active.playerCount hand) .showdown
    let active ← getActive
    expect (active.stateEvent L.toPrimitives)
  | .handComplete settlement => finishSettlement L execution settlement

variable (sequence : Nat)

def resolveReplayedAction (accepted conflicting : SignedHandAction) (now : UInt64) :
    ActiveHandM L.ziffle Unit := do
  let active ← getActive
  check (conflicting.seat = accepted.seat ∧ conflicting.playerId = accepted.playerId ∧
    conflicting.expectedPublicStateHash = accepted.expectedPublicStateHash)
    (.message "重复动作没有绑定已接受动作的行动者或公共前置状态")
  let (playerId, devicePublicKey) ← expect (active.actor L accepted.seat)
  expect (withContext "重复动作签名无效" .action
    (conflicting.verifyFor L.toPrimitives active.scope sequence accepted.expectedPublicStateHash
      accepted.seat playerId devicePublicKey now))
  if conflicting.payloadHash = accepted.payloadHash then pure ()
  else update fun active => { active with
    actionConflict := some
      { sequence, acceptedActionHash := accepted.payloadHash
        conflictingActionHash := conflicting.payloadHash } }

def commitAction (action : SignedHandAction) (origin : ActionOrigin) :
    ActiveHandM L.ziffle Unit := do
  let active ← getActive
  match active.committedActions[sequence]? with
  | some existing =>
    if existing = action then pure ()
    else resolveReplayedAction L sequence existing action execution.nowUnixMs
  | none =>
    check active.actionConflict.isNone (.message "本手牌存在签名动作冲突，已经冻结")
    check (sequence = active.sequence + 1) (.message (String.join
      ["动作序号不连续：预期 ", toString (active.sequence + 1), "，实际 ", toString sequence]))
    let (playerId, devicePublicKey) ← expect (active.actor L action.seat)
    let expected ← expect (active.publicStateHash L.toPrimitives)
    expect (withContext "动作设备签名验证失败" .action
      (action.verifyFor L.toPrimitives active.scope sequence expected action.seat playerId
        devicePublicKey execution.nowUnixMs))
    check (active.pendingReveal.isNone ∧ active.settled = false) (.message "当前不能提交新动作")
    let outcome ← onHand "当前手牌尚未完成私密发牌" "桌内动作不合法" (act playerId action.action)
    record (.committed active origin sequence action)
    update fun active => { active with
      sequence := sequence
      lastActionAtUnixMs := some action.issuedAtUnixMs
      turnStartedAtUnixMs := some execution.nowUnixMs
      actionTranscript := active.actionTranscript ++ writeBytes (L.cborAction action)
      committedActions := active.committedActions.insert sequence action }
    if origin = .local then
      queuePublicMessage L (.actionCommitted active.scope sequence action)
      handleActionOutcome L execution outcome
    else handleActionOutcome L execution outcome

def acceptOrDeferRemoteAction (action : SignedHandAction) : ActiveHandM L.ziffle Unit := do
  let active ← getActive
  if sequence ≤ active.sequence then commitAction L execution sequence action .remote
  else
    check (sequence = active.sequence + 1) (.message "动作序号越过本地下一动作")
    let (playerId, devicePublicKey) ← expect (active.actor L action.seat)
    expect (withContext "动作身份签名验证失败" .action
      (action.verifyFor L.toPrimitives active.scope sequence action.expectedPublicStateHash
        action.seat playerId devicePublicKey execution.nowUnixMs))
    let hand ← expect (active.betting "当前手牌尚未完成私密发牌")
    check (hand.nextPlayer = some playerId) (.message "动作玩家不是当前行动者")
    let stateHash ← expect (active.publicStateHash L.toPrimitives)
    if active.pendingReveal.isSome ∨ stateHash ≠ action.expectedPublicStateHash then
      let pending ← expect
        (insertConsistent active.pendingActions sequence action "待执行动作")
      update fun active => { active with pendingActions := pending }
    else commitAction L execution sequence action .remote

/-- The loop of `commit_deferred_actions`, for so many rounds. -/
def commitDeferredWithin (execution : HandExecutionContext L.ziffle) :
    Nat → ActiveHandM L.ziffle Unit
  | 0 => pure ()
  | rounds + 1 => do
    let active ← getActive
    if active.pendingReveal.isSome ∨ active.settled then pure ()
    else
      let sequence := active.sequence + 1
      match active.pendingActions[sequence]? with
      | none => pure ()
      | some action =>
        let stateHash ← expect (active.publicStateHash L.toPrimitives)
        if stateHash ≠ action.expectedPublicStateHash then pure ()
        else
          update fun active => { active with
            pendingActions := active.pendingActions.erase sequence }
          record (.resumed sequence action)
          commitAction L execution sequence action .remote
          commitDeferredWithin execution rounds

/-- `commit_deferred_actions`. Every round takes one action out of the map, so the
rounds do not run out. -/
def commitDeferredActions : ActiveHandM L.ziffle Unit := do
  let active ← getActive
  commitDeferredWithin L execution (active.pendingActions.size + 1)

def commitLocalAction (action : PlayerAction) : ActiveHandM L.ziffle Unit := do
  let active ← getActive
  check (active.disconnectedPeers = ∅) (.message "关键参与者已断线，牌桌会话暂停")
  check active.actionConflict.isNone (.message "本手牌存在签名动作冲突，已经冻结")
  check (active.pendingReveal.isNone ∧ active.settled = false)
    (.message "当前正在验证开牌或手牌已经结束")
  check active.AllPlayersReady (.message "尚未收到所有座位的私牌就绪确认")
  let hand ← expect (active.betting "当前手牌尚未完成私密发牌")
  check (hand.nextPlayer = some active.localPlayer) (.message "当前没有轮到本机玩家行动")
  check (active.sequence + 1 < 2 ^ 64) (.message "动作序号溢出")
  let stateHash ← expect (active.publicStateHash L.toPrimitives)
  let localSeat ← expect active.localSeatU8
  let signed ← expect (withContext "无法签名牌桌动作" .action
    (SignedHandAction.issue L.toPrimitives active.scope (active.sequence + 1) stateHash localSeat
      action execution.nowUnixMs execution.device execution.certificate))
  commitAction L execution (active.sequence + 1) signed .local

end TokenHoldem
