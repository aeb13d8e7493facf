import TokenHoldem.Sidecar.HandRuntime.State

/-!
# Dealing

The part of `ActiveHand::drive` that leads from the exchange of keys to the
betting: keys are verified and aggregated in seat order, every seat shuffles the
deck in turn, each seat gets the shares of its hole cards, and with the own cards
decrypted the betting state is built and readiness announced.
-/

namespace TokenHoldem

open Library TracedM

variable (L : HandPrimitives)

namespace ActiveHand

variable (active : ActiveHand L.ziffle)

/-! ## Keys -/

/-- The keys of all seats, verified in seat order. -/
def verifyAnnouncements : Except HandError (List L.ziffle.VerifiedPublicKey) :=
  (List.range' 1 active.playerCount).mapM fun index => do
    let seat ← seatU8 index
    let announcement ← okOr (.message "临时密钥集合缺少座位") active.announcements[seat]?
    withContext "临时密钥所有权证明无效" .mentalPoker
      (active.engine.verifyKeyAnnouncement L.ziffle announcement)

/-- The keys of all seats enter the transcript, in seat order. -/
def appendKeys : Except HandError ProtocolTranscript :=
  (List.range' 1 active.playerCount).foldlM (fun transcript index => do
    let seat ← seatU8 index
    let announcement ← okOr (.message "临时密钥集合缺少座位") active.announcements[seat]?
    return transcript.appendKey announcement) active.mentalTranscript

/-! ## Shuffles -/

/-- The packet that `ensure_local_shuffle` makes. -/
def localShuffle (draws : Draws L.ziffle) (next : UInt8) : Except HandError ShufflePacket := do
  let aggregate ← okOr (.message "缺少聚合密钥") active.aggregateKey
  if next = 1 then
    return active.engine.initialShuffle L.ziffle draws.shuffle aggregate
  else
    let previous ← okOr (.message "缺少上一阶段牌组") active.deck
    return active.engine.reshuffle L.ziffle draws.shuffle aggregate previous

/-- The deck of the next stage. -/
def verifyStage (next : UInt8) (packet : ShufflePacket) :
    Except HandError (VerifiedDeck L.ziffle) := do
  let aggregate ← okOr (.message "缺少聚合密钥") active.aggregateKey
  if next = 1 then
    withContext "首位玩家的初始洗牌证明无效" .mentalPoker
      (active.engine.verifyInitialShuffle L.ziffle aggregate packet)
  else
    let previous ← okOr (.message "缺少上一阶段牌组") active.deck
    withContext "顺序玩家的洗牌证明无效" .mentalPoker
      (active.engine.verifyReshuffle L.ziffle aggregate previous packet)

/-! ## Shares -/

/-- The shares of all seats for one card, verified in seat order. -/
def verifiedShares (keys : List L.ziffle.VerifiedPublicKey) (deck : VerifiedDeck L.ziffle)
    (packets : Std.TreeMap UInt8 RevealSharePacket) (cardIndex : UInt8)
    (missing invalid : String) : Except HandError (List L.ziffle.VerifiedRevealToken) :=
  (List.range' 1 active.playerCount).mapM fun index => do
    let seat ← seatU8 index
    let packet ← okOr (.message missing) packets[seat]?
    let key ← okOr outOfBounds keys[index - 1]?
    withContext invalid .mentalPoker
      (active.engine.verifyRevealShare L.ziffle deck cardIndex.toNat key packet)

def revealIfComplete (cardIndex : UInt8) : Except HandError (Option Card) :=
  match active.holeShares[cardIndex]? with
  | none => return none
  | some packets =>
    if packets.size ≠ active.playerCount then return none
    else do
      let keys ← okOr (.message "缺少已验证临时密钥") active.verifiedKeys
      let deck ← okOr (.message "最终牌组尚未就绪") active.deck
      let shares ← active.verifiedShares L keys deck packets cardIndex "底牌份额集合缺少座位"
        "私密底牌解密份额证明无效"
      let card ← withContext "无法聚合私密底牌解密份额" .mentalPoker
        (MentalPokerEngine.revealHoldemCard L.ziffle deck cardIndex.toNat shares active.playerCount)
      return some card

def revealLocalHoleCards : Except HandError (Option (Card × Card)) := do
  let indices := holeIndices active.table.localSeat
  let first ← active.revealIfComplete L indices.1
  let second ← active.revealIfComplete L indices.2
  return match first, second with
    | some first, some second => some (first, second)
    | _, _ => none

/-- The cards that `begin_hole_distribution` walks over, each with its owner. -/
def holeCardsToDeal : List (Nat × UInt8) :=
  (List.range active.playerCount).flatMap fun owner =>
    (holeIndexList owner).map fun cardIndex => (owner, cardIndex)

end ActiveHand

open ActiveHand

/-! ## The steps of `drive` -/

def queuePublicMessage (message : HandPublicMessage) : ActiveHandM L.ziffle Unit :=
  record (.sentPublic message)

/-- The first part of `drive`: the keys, once all seats have announced theirs. -/
def aggregateKeys : ActiveHandM L.ziffle Unit := do
  let active ← getActive
  if active.verifiedKeys.isNone ∧ active.announcements.size = active.playerCount then
    let verified ← expect (active.verifyAnnouncements L)
    let aggregate ← expect (withContext "无法聚合临时牌组密钥" .mentalPoker
      (MentalPokerEngine.aggregateKey L.ziffle verified))
    let transcript ← expect (active.appendKeys L)
    update fun active => { active with
      mentalTranscript := transcript
      verifiedKeys := some verified
      aggregateKey := some aggregate }
    expect (active.progress 0)
  else pure ()

variable (draws : Draws L.ziffle)

def ensureLocalShuffle : ActiveHandM L.ziffle Unit := do
  let active ← getActive
  let next := saturatingAddU8 active.shuffleStage 1
  if active.playerCount < next.toNat ∨ next.toNat ≠ active.table.localSeat + 1 ∨
      (active.shufflePackets[next]?).isSome then
    pure ()
  else
    let packet ← expect (active.localShuffle L draws next)
    update fun active => { active with shufflePackets := active.shufflePackets.insert next packet }
    queuePublicMessage L (.shuffle active.scope next packet)

/-- The loop of `drive` over the shuffles, for so many rounds. -/
def advanceShuffles (draws : Draws L.ziffle) : Nat → ActiveHandM L.ziffle Unit
  | 0 => pure ()
  | rounds + 1 => do
    let active ← getActive
    let next := saturatingAddU8 active.shuffleStage 1
    match active.shufflePackets[next]? with
    | none => pure ()
    | some packet =>
      let deck ← expect (active.verifyStage L next packet)
      update fun active => { active with
        mentalTranscript := active.mentalTranscript.appendShuffle packet
        deck := some deck
        shuffleStage := next }
      expect (active.progress next.toNat)
      if active.playerCount ≤ next.toNat then pure ()
      else
        ensureLocalShuffle L draws
        advanceShuffles draws rounds

/-- The second part of `drive`: the shuffles. Every round ends the loop or moves to
the next stage, and the stage of the last seat ends it, so the rounds do not run
out. -/
def runShuffles : ActiveHandM L.ziffle Unit := do
  let active ← getActive
  if active.aggregateKey.isSome then
    ensureLocalShuffle L draws
    advanceShuffles L draws (active.playerCount + 1)
  else pure ()

/-- The loops of `begin_hole_distribution`: the own shares are kept, the others
returned with their recipients. -/
def createHoleShares (draws : Draws L.ziffle) (fromSeat : UInt8) (deck : VerifiedDeck L.ziffle) :
    List (Nat × UInt8) → ActiveHandM L.ziffle (List (PeerId × HandPrivateMessage))
  | [] => pure []
  | (owner, cardIndex) :: rest => do
    let active ← getActive
    let toSeat ← expect (seatU8 (owner + 1))
    let packet ← expect (withContext "无法生成私密底牌解密份额" .mentalPoker
      (active.engine.createRevealShare L.ziffle (draws.holeShare cardIndex) deck cardIndex.toNat
        active.localKey))
    record (.createdHoleShare owner cardIndex packet)
    if owner = active.table.localSeat then
      update fun active => { active with
        holeShares := active.holeShares.insert cardIndex
          ((active.holeShares.of cardIndex).insert fromSeat packet) }
      createHoleShares draws fromSeat deck rest
    else
      let peer ← expect (okOr outOfBounds active.table.peerIds[owner]?)
      let outbound ← createHoleShares draws fromSeat deck rest
      return (peer, { scope := active.scope, fromSeat, toSeat, cardIndex, packet }) :: outbound

def beginHoleDistribution : ActiveHandM L.ziffle Unit := do
  let active ← getActive
  let deck ← expect (okOr (.message "最终牌组尚未就绪") active.deck)
  let fromSeat ← expect active.localSeatU8
  let outbound ← createHoleShares L draws fromSeat deck (active.holeCardsToDeal L)
  forEach (fun delivery => record (.sentPrivate delivery.1 delivery.2)) outbound
  update fun active => { active with holeDistributionStarted := true }

/-- The third part of `drive`: the hole cards are dealt once the last seat has shuffled. -/
def distributeHoleCards : ActiveHandM L.ziffle Unit := do
  let active ← getActive
  if active.shuffleStage.toNat = active.playerCount ∧ active.holeDistributionStarted = false then
    beginHoleDistribution L draws
    expect (active.progress 0)
  else pure ()

def startBettingHand : ActiveHandM L.ziffle Unit := do
  let active ← getActive
  let hand ← expect (withContext "无法初始化桌内下注状态" .holdem
    (HoldemHand.start active.table.level (active.table.players.zip active.table.buyIns)
      active.dealerIndex))
  update fun active => { active with hand := some hand }

/-- The fourth part of `drive`: with the own hole cards decrypted the betting state
is built and readiness announced. -/
def dealLocalCards : ActiveHandM L.ziffle Unit := do
  let active ← getActive
  if active.localHoleCards.isNone ∧ active.holeDistributionStarted = true then
    match ← expect (active.revealLocalHoleCards L) with
    | none => pure ()
    | some cards =>
      update fun active => { active with localHoleCards := some cards }
      startBettingHand L
      let localSeat ← expect active.localSeatU8
      update fun active => { active with readySeats := insert localSeat active.readySeats }
      queuePublicMessage L (.dealReady active.scope localSeat)
      let active ← getActive
      expect (active.progress active.readySeats.card)
      expect (active.stateEvent L.toPrimitives)
  else pure ()

end TokenHoldem
