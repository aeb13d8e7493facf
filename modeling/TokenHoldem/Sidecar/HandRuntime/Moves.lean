import TokenHoldem.Domain.Calls
import TokenHoldem.Sidecar.HandRuntime.Runtime

/-!
# What a call can do to a hand

Every call of a hand is a sequence of a few kinds of moves: a key or a shuffle is
accepted, a share is created, an action is committed, a card is turned over, the
hand is settled. `HandMove` lists them with what is known when they are made, and
`HandRun.by_moves` turns what every move keeps into what every run keeps.

A commitment and the reveal it calls for are one move (`advanced`): no state in
which the action counts but the cards have not been asked for is left behind,
unless the request fails (`stalled`).
-/

namespace TokenHoldem

open Library TracedM

variable {L : HandPrimitives}

/-! ## Pieces of moves -/

/-- The same consensus with other signatures, or none as before. A consensus that has
been finalized is not opened again. -/
inductive SameConsensus : Option ReceiptConsensus → Option ReceiptConsensus → Prop
  | none : SameConsensus none none
  | some {before after : ReceiptConsensus} (receipt : after.receipt = before.receipt)
      (closed : before.finalized = true → after.finalized = true) :
      SameConsensus (some before) (some after)

theorem SameConsensus.refl :
    (consensus : Option ReceiptConsensus) → SameConsensus consensus consensus
  | .none => .none
  | .some _ => .some rfl id

/-- Changes that take no part in the dealing and the betting: clocks, connections,
hole shares and the collection of signatures. -/
def Aside {Z : Ziffle} (a b : ActiveHand Z) : Prop :=
  ∃ holeShares turn consensus signatures leave peers,
    SameConsensus a.receiptConsensus consensus ∧
    b = { a with
      holeShares := holeShares
      turnStartedAtUnixMs := turn
      receiptConsensus := consensus
      pendingReceiptSignatures := signatures
      safeLeaveRequested := leave
      disconnectedPeers := peers }

/-- No share is lost or replaced. -/
def Shares.Extends (shares shares' : Shares) : Prop :=
  ∀ (cardIndex seat : UInt8) (packet : RevealSharePacket),
    (shares.of cardIndex)[seat]? = some packet → (shares'.of cardIndex)[seat]? = some packet

/-- The cards that an action calls for, by its outcome: those of the street that
begins, or those of the showdown. -/
def calledCards (playerCount : Nat) (hand : HoldemHand) :
    ActionOutcome → Option (RevealReason × List UInt8)
  | .streetAdvanced .flop _ => some (.street, sortedIndices (flopIndices playerCount))
  | .streetAdvanced .turn _ => some (.street, sortedIndices [turnIndex playerCount])
  | .streetAdvanced .river _ => some (.street, sortedIndices [riverIndex playerCount])
  | .showdownReady => some (.showdown, sortedIndices (showdownIndices playerCount hand))
  | _ => none

/-- The own shares for the cards of a reveal: the shares that come out of it, what
was created and what is to be sent. -/
structure Contributes {Z : Ziffle} (a : ActiveHand Z) (indices : List UInt8) (shares : Shares)
    (created : List (HandEffect Z)) (outbound : List HandPublicMessage) : Prop where
  grows : a.publicShares.Extends shares
  creates : ∀ effect ∈ created, ∃ before cardIndex packet,
    effect = .createdPublicShare { a with publicShares := before } cardIndex packet ∧
      cardIndex ∈ indices ∧ cardIndex.toNat < standardDeckSize
  sends : ∀ message ∈ outbound, ∃ seat cardIndex packet before,
    message = .communityRevealShare a.scope seat cardIndex packet ∧
      .createdPublicShare before cardIndex packet ∈ created

/-- The own shares for some cards can be created. -/
structure CanContribute {Z : Ziffle} (a : ActiveHand Z) (indices : List UInt8) : Prop where
  deck : a.deck.isSome = true
  seat : ∃ seat, a.localSeatU8 = .ok seat
  inDeck : ∀ cardIndex ∈ indices, cardIndex.toNat < standardDeckSize

/-- The public message that a call handles, with its source. -/
abbrev HandInput := Option (PeerId × HandPublicMessage)

/-- The public message that a call handles. -/
def HandCommand.input : HandCommand L.ziffle → HandInput
  | .publicMessage _ source message => source.map fun peer => (peer, message)
  | _ => none

/-- What is known of a message when it is sent. The own public shares are sent in
the moves that create them. -/
def Sendable {Z : Ziffle} (a : ActiveHand Z) : HandPublicMessage → Prop
  | .dealReady _ seat =>
    a.localSeatU8 = .ok seat ∧ a.hand.isSome = true ∧ a.localHoleCards.isSome = true
  | .actionCommitted .. => False
  | .communityRevealShare .. => False
  | _ => True

/-- Where an action comes from that is to be committed. -/
inductive Licensed {Z : Ziffle} (input : HandInput) (trace : List (HandEffect Z))
    (a : ActiveHand Z) (sequence : Nat) (action : SignedHandAction) : ActionOrigin → Prop
  | own (ready : a.AllPlayersReady) : Licensed input trace a sequence action .local
  | received (source : PeerId) (scope : HandScope)
      (handled : input = some (source, .actionCommitted scope sequence action)) :
      Licensed input trace a sequence action .remote
  | resumed (taken : .resumed sequence action ∈ trace) :
      Licensed input trace a sequence action .remote

/-- The checks of `commit_action` before the betting state acts. -/
structure Acceptable (L : HandPrimitives) (input : HandInput)
    (trace : List (HandEffect L.ziffle)) (a : ActiveHand L.ziffle) (origin : ActionOrigin)
    (sequence : Nat) (action : SignedHandAction) : Prop where
  licensed : Licensed input trace a sequence action origin
  fresh : a.committedActions[sequence]? = none
  free : a.actionConflict = none
  next : sequence = a.sequence + 1
  bound : a.publicStateHash L.toPrimitives = .ok action.expectedPublicStateHash
  noReveal : a.pendingReveal = none
  unsettled : a.settled = false

/-- The state after an action has been committed. -/
def ActiveHand.commitTo (a : ActiveHand L.ziffle) (now : UInt64) (sequence : Nat)
    (action : SignedHandAction) (hand : HoldemHand) : ActiveHand L.ziffle :=
  { a with
    hand := some hand
    sequence := sequence
    lastActionAtUnixMs := some action.issuedAtUnixMs
    turnStartedAtUnixMs := some now
    actionTranscript := a.actionTranscript ++ writeBytes (L.cborAction action)
    committedActions := a.committedActions.insert sequence action }

/-- What is recorded when an action is committed: the commitment, and the message
about an action of the own seat. -/
def commitEffects {Z : Ziffle} (a : ActiveHand Z) (origin : ActionOrigin) (sequence : Nat)
    (action : SignedHandAction) : List (HandEffect Z) :=
  .committed a origin sequence action :: match origin with
    | .local => [.sentPublic (.actionCommitted a.scope sequence action)]
    | .remote => []

/-- The settlement is that of the betting state, and it balances. -/
def Balances {Z : Ziffle} (a : ActiveHand Z) (settlement : HoldemSettlement) : Prop :=
  ∃ hand, a.hand = some hand ∧ settlement = ⟨hand.playerSettlements⟩ ∧ hand.totalDelta = 0

/-- All cards of a reveal have been turned over. -/
def Revealed {Z : Ziffle} (a : ActiveHand Z) (indices : List UInt8) : Prop :=
  ∀ cardIndex ∈ indices, (a.publicCards[cardIndex]?).isSome = true

/-- The hand has not been settled before: an action has just been committed, or the
showdown has just been run, and what the showdown has found is in its record. -/
structure Unsettled {Z : Ziffle} (trace : List (HandEffect Z)) (a : ActiveHand Z) : Prop where
  noReveal : a.pendingReveal = none
  first : a.settled = false ∨ ∃ before, .showdown before ∈ trace ∧ before.settled = a.settled

/-! ## Moves -/

/-- One move of a call, with its effects. `input` is the public message that the
call handles, `trace` what it has done before. -/
inductive HandMove (L : HandPrimitives) (input : HandInput) (trace : List (HandEffect L.ziffle)) :
    ActiveHand L.ziffle → List (HandEffect L.ziffle) → ActiveHand L.ziffle → Prop
  | aside {a b} (change : Aside a b) : HandMove L input trace a [] b
  | sent {a} (message : HandPublicMessage) (sendable : Sendable a message) :
      HandMove L input trace a [.sentPublic message] a
  | relayed {a} (source : PeerId) (message : HandPublicMessage)
      (handled : input = some (source, message)) :
      HandMove L input trace a [.relayed message] a
  | announced {a} (seat : UInt8) (announcement : KeyAnnouncement)
      (fresh : a.announcements[seat]? = none) :
      HandMove L input trace a []
        { a with announcements := a.announcements.insert seat announcement }
  | aggregated {a} (keys : List L.ziffle.VerifiedPublicKey)
      (aggregate : L.ziffle.AggregatePublicKey) (transcript : ProtocolTranscript)
      (first : a.verifiedKeys = none) (verified : a.verifyAnnouncements L = .ok keys)
      (summed : MentalPokerEngine.aggregateKey L.ziffle keys = .ok aggregate)
      (appended : a.appendKeys L = .ok transcript) :
      HandMove L input trace a []
        { a with
          mentalTranscript := transcript
          verifiedKeys := some keys
          aggregateKey := some aggregate }
  | shuffleAdded {a} (seat : UInt8) (packet : ShufflePacket)
      (fresh : a.shufflePackets[seat]? = none)
      (seated : seat.toNat ≤ a.playerCount ∨ seat.toNat ≤ a.table.peerIds.length) :
      HandMove L input trace a []
        { a with shufflePackets := a.shufflePackets.insert seat packet }
  | shuffled {a} (packet : ShufflePacket) (deck : VerifiedDeck L.ziffle)
      (present : a.shufflePackets[saturatingAddU8 a.shuffleStage 1]? = some packet)
      (verified : a.verifyStage L (saturatingAddU8 a.shuffleStage 1) packet = .ok deck) :
      HandMove L input trace a []
        { a with
          mentalTranscript := a.mentalTranscript.appendShuffle packet
          deck := some deck
          shuffleStage := saturatingAddU8 a.shuffleStage 1 }
  | holeShareCreated {a} (owner : Nat) (cardIndex : UInt8) (packet : RevealSharePacket)
      (seated : owner < a.playerCount) (owned : cardIndex ∈ holeIndexList owner)
      (inDeck : cardIndex.toNat < standardDeckSize) :
      HandMove L input trace a [.createdHoleShare owner cardIndex packet] a
  | sentPrivate {a} (owner : Nat) (peer : PeerId) (message : HandPrivateMessage)
      (recipient : a.table.peerIds[owner]? = some peer)
      (addressed : seatU8 (owner + 1) = .ok message.toSeat)
      (created : .createdHoleShare owner message.cardIndex message.packet ∈ trace) :
      HandMove L input trace a [.sentPrivate peer message] a
  | distributed {a} (complete : a.shuffleStage.toNat = a.playerCount) :
      HandMove L input trace a [] { a with holeDistributionStarted := true }
  | decrypted {a} (cards : Card × Card) (free : a.actionConflict = none)
      (first : a.localHoleCards = none) :
      HandMove L input trace a [] { a with localHoleCards := some cards }
  | started {a} (cards : Card × Card) (hand : HoldemHand) (free : a.actionConflict = none)
      (first : a.localHoleCards = none) (dealt : a.holeDistributionStarted = true)
      (keys : a.verifiedKeys.isSome = true) (deck : a.deck.isSome = true)
      (begun : HoldemHand.start a.table.level (a.table.players.zip a.table.buyIns) a.dealerIndex
        = .ok hand) :
      HandMove L input trace a []
        { a with localHoleCards := some cards, hand := some hand }
  | readyOwn {a} (seat : UInt8) (own : a.localSeatU8 = .ok seat) (dealt : a.hand.isSome = true)
      (cards : a.localHoleCards.isSome = true) :
      HandMove L input trace a [] { a with readySeats := insert seat a.readySeats }
  | readyHeard {a} (source : PeerId) (scope : HandScope) (seat : UInt8)
      (handled : input = some (source, .dealReady scope seat))
      (authentic : a.verifySeatSource seat source = .ok ()) :
      HandMove L input trace a [] { a with readySeats := insert seat a.readySeats }
  | shared {a} (shares : Shares) (grown : a.publicShares.Extends shares) :
      HandMove L input trace a [] { a with publicShares := shares }
  | deferred {a} (source : PeerId) (scope : HandScope) (sequence : Nat) (action : SignedHandAction)
      (handled : input = some (source, .actionCommitted scope sequence action))
      (fresh : a.pendingActions[sequence]? = none) :
      HandMove L input trace a []
        { a with pendingActions := a.pendingActions.insert sequence action }
  | resumed {a} (sequence : Nat) (action : SignedHandAction)
      (waiting : a.pendingActions[sequence]? = some action) :
      HandMove L input trace a [.resumed sequence action]
        { a with pendingActions := a.pendingActions.erase sequence }
  /-- The betting state refuses the action, and keeps what it has changed. -/
  | refused {a} (origin : ActionOrigin) (sequence : Nat) (action : SignedHandAction)
      (hand hand' : HoldemHand) (error : HoldemError)
      (acceptable : Acceptable L input trace a origin sequence action)
      (betting : a.hand = some hand)
      (acted : (act action.playerId action.action).run hand = .error error hand') :
      HandMove L input trace a [] { a with hand := some hand' }
  /-- An action that calls for no card. -/
  | committed {a} (now : UInt64) (origin : ActionOrigin) (sequence : Nat)
      (action : SignedHandAction) (hand hand' : HoldemHand) (outcome : ActionOutcome)
      (acceptable : Acceptable L input trace a origin sequence action)
      (betting : a.hand = some hand)
      (acted : (act action.playerId action.action).run hand = .ok outcome hand')
      (uncalled : calledCards a.playerCount hand' outcome = none) :
      HandMove L input trace a (commitEffects a origin sequence action)
        (a.commitTo now sequence action hand')
  /-- An action with the reveal that it calls for. -/
  | advanced {a} (now : UInt64) (origin : ActionOrigin) (sequence : Nat)
      (action : SignedHandAction) (hand hand' : HoldemHand) (outcome : ActionOutcome)
      (reason : RevealReason) (indices : List UInt8) (shares : Shares)
      (created : List (HandEffect L.ziffle)) (outbound : List HandPublicMessage)
      (acceptable : Acceptable L input trace a origin sequence action)
      (betting : a.hand = some hand)
      (acted : (act action.playerId action.action).run hand = .ok outcome hand')
      (called : calledCards a.playerCount hand' outcome = some (reason, indices))
      (contributes : Contributes
        { a.commitTo now sequence action hand' with turnStartedAtUnixMs := none } indices shares
          created outbound) :
      HandMove L input trace a
        (commitEffects a origin sequence action ++ created ++ outbound.map .sentPublic)
        { a.commitTo now sequence action hand' with
          turnStartedAtUnixMs := none
          publicShares := shares
          pendingReveal := some { reason, indices } }
  /-- An action whose reveal could not be asked for. -/
  | stalled {a} (now : UInt64) (origin : ActionOrigin) (sequence : Nat)
      (action : SignedHandAction) (hand hand' : HoldemHand) (outcome : ActionOutcome)
      (reason : RevealReason) (indices : List UInt8) (shares : Shares)
      (created : List (HandEffect L.ziffle))
      (acceptable : Acceptable L input trace a origin sequence action)
      (betting : a.hand = some hand)
      (acted : (act action.playerId action.action).run hand = .ok outcome hand')
      (called : calledCards a.playerCount hand' outcome = some (reason, indices))
      (contributes : Contributes
        { a.commitTo now sequence action hand' with turnStartedAtUnixMs := none } indices shares
          created [])
      (failed : ¬CanContribute a indices) :
      HandMove L input trace a (commitEffects a origin sequence action ++ created)
        { a.commitTo now sequence action hand' with
          turnStartedAtUnixMs := none
          publicShares := shares }
  | conflicted {a} (sequence : Nat) (accepted conflicting : SignedHandAction)
      (present : a.committedActions[sequence]? = some accepted)
      (differ : conflicting.payloadHash ≠ accepted.payloadHash) :
      HandMove L input trace a []
        { a with
          actionConflict := some
            { sequence, acceptedActionHash := accepted.payloadHash
              conflictingActionHash := conflicting.payloadHash } }
  | cardRevealed {a} (pending : PendingReveal) (before rest : List UInt8) (cardIndex : UInt8)
      (packets : Std.TreeMap UInt8 RevealSharePacket) (keys : List L.ziffle.VerifiedPublicKey)
      (deck : VerifiedDeck L.ziffle) (shares : List L.ziffle.VerifiedRevealToken) (card : Card)
      (transcript : ProtocolTranscript) (free : a.actionConflict = none)
      (asked : a.pendingReveal = some pending)
      (inOrder : pending.indices = before ++ cardIndex :: rest) (earlier : Revealed a before)
      (hidden : a.publicCards[cardIndex]? = none)
      (collected : a.publicShares[cardIndex]? = some packets)
      (allKeys : a.verifiedKeys = some keys) (finalDeck : a.deck = some deck)
      (verified : a.verifiedShares L keys deck packets cardIndex "公共份额集合缺少座位"
        "公共牌解密份额证明无效" = .ok shares)
      (opened : MentalPokerEngine.revealHoldemCard L.ziffle deck cardIndex.toNat shares
        a.playerCount = .ok card)
      (appended : a.appendShares L packets = .ok transcript) :
      HandMove L input trace a []
        { a with
          mentalTranscript := transcript
          publicCards := a.publicCards.insert cardIndex card }
  | streetRevealed {a} (pending : PendingReveal) (free : a.actionConflict = none)
      (asked : a.pendingReveal = some pending)
      (reason : pending.reason = .street) (complete : Revealed a pending.indices) :
      HandMove L input trace a [] { a with pendingReveal := none }
  | showdownRun {a} (pending : PendingReveal) (hand : HoldemHand) (board : Board)
      (holes : Std.TreeMap PlayerId (Card × Card)) (free : a.actionConflict = none)
      (asked : a.pendingReveal = some pending)
      (reason : pending.reason = .showdown) (complete : Revealed a pending.indices)
      (betting : a.hand = some hand) (dealt : a.showdownBoard L = .ok board)
      (shown : a.showdownHoles L hand = .ok holes) :
      HandMove L input trace a [.showdown { a with pendingReveal := none }]
        { a with
          pendingReveal := none
          hand := some (endState ((settleShowdown board fun p => holes[p]?).run hand)) }
  /-- A showdown for which a card or the betting state is missing. -/
  | showdownLost {a} (pending : PendingReveal) (free : a.actionConflict = none)
      (asked : a.pendingReveal = some pending)
      (reason : pending.reason = .showdown) (complete : Revealed a pending.indices)
      (lost : ¬∃ hand board holes, a.hand = some hand ∧ a.showdownBoard L = .ok board ∧
        a.showdownHoles L hand = .ok holes) :
      HandMove L input trace a [] { a with pendingReveal := none }
  | settled {a} (execution : HandExecutionContext L.ziffle) (settlement : HoldemSettlement)
      (receipt : HandReceipt) (consensus : ReceiptConsensus) (signature : ParticipantSignature)
      (free : a.actionConflict = none) (balances : Balances a settlement)
      (built : a.buildReceipt L settlement = .ok receipt)
      (signed : ReceiptConsensus.start L.toPrimitives receipt execution.device
        execution.certificate execution.nowUnixMs = .ok (consensus, signature))
      (first : Unsettled trace a) :
      HandMove L input trace a [.settling a execution]
        { a with settled := true, turnStartedAtUnixMs := none, receiptConsensus := some consensus }
  /-- The hand counts as settled, but no receipt could be built or signed. -/
  | wedged {a} (execution : HandExecutionContext L.ziffle) (settlement : HoldemSettlement)
      (free : a.actionConflict = none) (balances : Balances a settlement)
      (failed : ∀ receipt started, a.buildReceipt L settlement = .ok receipt →
        ReceiptConsensus.start L.toPrimitives receipt execution.device execution.certificate
          execution.nowUnixMs ≠ .ok started)
      (first : Unsettled trace a) :
      HandMove L input trace a [.settling a execution]
        { a with settled := true, turnStartedAtUnixMs := none }
  | finalized {a} (now : UInt64) (before after : ReceiptConsensus) (receipt : CoSignedReceipt)
      (collecting : a.receiptConsensus = some before) (unfinished : before.finalized = false)
      (complete : before.tryFinalize L.toPrimitives now = .ok (after, some receipt)) :
      HandMove L input trace a [.finalized receipt]
        { a with receiptConsensus := some after, finalizedReceipt := some receipt }

/-! ## What no move touches, and what a move does to the betting -/

/-- The parts of a hand that never change. -/
structure SameHand {Z : Ziffle} (a b : ActiveHand Z) : Prop where
  table : b.table = a.table
  handNumber : b.handNumber = a.handNumber
  dealerIndex : b.dealerIndex = a.dealerIndex
  engine : b.engine = a.engine

/-- What a move does to the betting state. -/
inductive BettingStep (a b : ActiveHand L.ziffle) : Prop
  | kept (same : b.hand = a.hand)
  | started (hand : HoldemHand) (first : a.localHoleCards = none) (stored : b.hand = some hand)
      (begun : HoldemHand.start a.table.level (a.table.players.zip a.table.buyIns) a.dealerIndex
        = .ok hand)
  | acted (hand : HoldemHand) (playerId : PlayerId) (action : PlayerAction)
      (betting : a.hand = some hand)
      (stored : b.hand = some (endState ((act playerId action).run hand)))
  | shown (hand : HoldemHand) (board : Board) (holes : HoleCards) (betting : a.hand = some hand)
      (stored : b.hand = some (endState ((settleShowdown board holes).run hand)))

section

variable {input : HandInput} {trace effects : List (HandEffect L.ziffle)}
  {a b : ActiveHand L.ziffle}

theorem HandMove.sameHand (move : HandMove L input trace a effects b) : SameHand a b := by
  cases move with
  | aside change =>
    obtain ⟨_, _, _, _, _, _, _, rfl⟩ := change
    exact ⟨rfl, rfl, rfl, rfl⟩
  | _ => exact ⟨rfl, rfl, rfl, rfl⟩

theorem HandMove.bettingStep (move : HandMove L input trace a effects b) : BettingStep a b := by
  cases move with
  | aside change =>
    obtain ⟨_, _, _, _, _, _, _, rfl⟩ := change
    exact .kept rfl
  | started cards hand free first dealt keys deck begun => exact .started hand first rfl begun
  | refused origin sequence action hand hand' error acceptable betting acted =>
    exact .acted hand action.playerId action.action betting (by rw [acted]; rfl)
  | committed now origin sequence action hand hand' outcome acceptable betting acted =>
    exact .acted hand action.playerId action.action betting (by rw [acted]; rfl)
  | advanced now origin sequence action hand hand' outcome _ _ _ _ _ acceptable betting acted =>
    exact .acted hand action.playerId action.action betting (by rw [acted]; rfl)
  | stalled now origin sequence action hand hand' outcome _ _ _ _ acceptable betting acted =>
    exact .acted hand action.playerId action.action betting (by rw [acted]; rfl)
  | showdownRun pending hand board holes free asked reason complete betting =>
    exact .shown hand board _ betting rfl
  | _ => exact .kept rfl

end

/-- The moves of a call so far. -/
inductive HandMoves (L : HandPrimitives) (input : HandInput) (a : ActiveHand L.ziffle) :
    List (HandEffect L.ziffle) → ActiveHand L.ziffle → Prop
  | refl : HandMoves L input a [] a
  | snoc {trace effects : List (HandEffect L.ziffle)} {b c : ActiveHand L.ziffle} :
      HandMoves L input a trace b → HandMove L input trace b effects c →
      HandMoves L input a (trace ++ effects) c

/-! ## Hands in order -/

/-- The betting state has come about by calls of its own methods, and a hand that was
won by a fold counts as settled. -/
structure ActiveHand.Tidy {Z : Ziffle} (a : ActiveHand Z) : Prop where
  called : ∀ hand ∈ a.hand,
    Called a.table.level (a.table.players.zip a.table.buyIns) a.dealerIndex hand
  settled : ∀ hand ∈ a.hand, hand.street = .complete →
    hand.nextToAct = none ∨ a.settled = true

section

variable {input : HandInput} {trace effects : List (HandEffect L.ziffle)}
  {a b : ActiveHand L.ziffle}

theorem HandMove.settled_mono (move : HandMove L input trace a effects b)
    (h : a.settled = true) : b.settled = true := by
  cases move with
  | aside change =>
    obtain ⟨_, _, _, _, _, _, _, rfl⟩ := change
    exact h
  | settled => rfl
  | wedged => rfl
  | _ => exact h

theorem HandMove.called (move : HandMove L input trace a effects b) (h : ∀ hand ∈ a.hand,
      Called a.table.level (a.table.players.zip a.table.buyIns) a.dealerIndex hand) :
    ∀ hand ∈ b.hand,
      Called b.table.level (b.table.players.zip b.table.buyIns) b.dealerIndex hand := by
  have same := move.sameHand
  rw [same.table, same.dealerIndex]
  intro hand hhand
  cases move.bettingStep with
  | kept kept => exact h hand (kept ▸ hhand)
  | started begun first stored start =>
    cases Option.some.inj (stored.symm.trans hhand)
    exact .start start
  | acted before playerId action betting stored =>
    cases Option.some.inj (stored.symm.trans hhand)
    rw [← endState_perform_act]
    exact .call _ (h before betting)
  | shown before board holes betting stored =>
    cases Option.some.inj (stored.symm.trans hhand)
    rw [← endState_perform_settle]
    exact .call _ (h before betting)

/-- A move that leaves the betting alone keeps a hand in order. -/
theorem HandMove.tidy (move : HandMove L input trace a effects b) (kept : b.hand = a.hand)
    (h : a.Tidy) : b.Tidy where
  called := move.called h.called
  settled := by
    intro hand hhand hcomplete
    exact (h.settled hand (kept ▸ hhand) hcomplete).imp_right move.settled_mono

end

/-- A call that started in `a` has come to `s` by moves, and has not left a hand that was
in order. -/
structure Came (L : HandPrimitives) (input : HandInput) (a : ActiveHand L.ziffle)
    (s : TracedHand L.ziffle) : Prop where
  moves : HandMoves L input a s.trace s.active
  tidy : a.Tidy → s.active.Tidy

section

variable {input : HandInput} {a b : ActiveHand L.ziffle} {effects : List (HandEffect L.ziffle)}
  {s : TracedHand L.ziffle}

theorem Came.refl : Came L input a { active := a, trace := [] } := ⟨.refl, id⟩

/-- A move that changes the betting, but does not complete the hand by a fold. -/
theorem Came.bet (h : Came L input a s) (move : HandMove L input s.trace s.active effects b)
    (settled : s.active.Tidy → ∀ hand ∈ b.hand, hand.street = .complete →
      hand.nextToAct = none ∨ b.settled = true) :
    Came L input a { active := b, trace := s.trace ++ effects } :=
  ⟨.snoc h.moves move, fun start => ⟨move.called (h.tidy start).called, settled (h.tidy start)⟩⟩

theorem Came.move (h : Came L input a s) (move : HandMove L input s.trace s.active effects b)
    (kept : b.hand = s.active.hand) :
    Came L input a { active := b, trace := s.trace ++ effects } :=
  h.bet move fun tidy => (move.tidy kept tidy).settled

/-- A move without effects. -/
theorem Came.silent (h : Came L input a s) (move : HandMove L input s.trace s.active [] b)
    (kept : b.hand = s.active.hand) : Came L input a { s with active := b } := by
  have := h.move move kept
  rwa [List.append_nil] at this

theorem Aside.hand {Z : Ziffle} {a b : ActiveHand Z} (change : Aside a b) : b.hand = a.hand := by
  obtain ⟨_, _, _, _, _, _, _, rfl⟩ := change
  rfl

theorem Came.aside (h : Came L input a s) (change : Aside s.active b) :
    Came L input a { s with active := b } := h.silent (.aside change) change.hand

/-- The call has come to `s` by moves, and this is the conflict that is known there. -/
structure Calm (L : HandPrimitives) (input : HandInput) (a : ActiveHand L.ziffle)
    (conflict : Option ActionConflictEvidence)
    (s : TracedHand L.ziffle) : Prop where
  came : Came L input a s
  conflict : s.active.actionConflict = conflict

variable {conflict : Option ActionConflictEvidence}

theorem Calm.bet (h : Calm L input a conflict s)
    (move : HandMove L input s.trace s.active effects b)
    (same : b.actionConflict = s.active.actionConflict)
    (settled : s.active.Tidy → ∀ hand ∈ b.hand, hand.street = .complete →
      hand.nextToAct = none ∨ b.settled = true) :
    Calm L input a conflict { active := b, trace := s.trace ++ effects } :=
  ⟨h.came.bet move settled, same.trans h.conflict⟩

theorem Calm.move (h : Calm L input a conflict s)
    (move : HandMove L input s.trace s.active effects b)
    (same : b.actionConflict = s.active.actionConflict) (kept : b.hand = s.active.hand) :
    Calm L input a conflict { active := b, trace := s.trace ++ effects } :=
  ⟨h.came.move move kept, same.trans h.conflict⟩

theorem Calm.silent (h : Calm L input a conflict s)
    (move : HandMove L input s.trace s.active [] b)
    (same : b.actionConflict = s.active.actionConflict) (kept : b.hand = s.active.hand) :
    Calm L input a conflict { s with active := b } :=
  ⟨h.came.silent move kept, same.trans h.conflict⟩

theorem Aside.actionConflict {Z : Ziffle} {a b : ActiveHand Z} (change : Aside a b) :
    b.actionConflict = a.actionConflict := by
  obtain ⟨_, _, _, _, _, _, _, rfl⟩ := change
  rfl

theorem Calm.aside (h : Calm L input a conflict s) (change : Aside s.active b) :
    Calm L input a conflict { s with active := b } :=
  h.silent (.aside change) change.actionConflict change.hand

end

end TokenHoldem
