import Mathlib.Data.Finset.Sort
import TokenHoldem.Domain.Card
import TokenHoldem.Domain.Identity
import TokenHoldem.Domain.StakeLevel
import TokenHoldem.Library.Fallible

/-!
# The betting engine

`HoldemHand` of `token-holdem-domain/src/holdem.rs`, function by function. A
method of the source that takes `&mut self` and returns a `Result` is a
computation in `HandM`: it keeps the hand as the method leaves it also when it
fails. Vectors are lists, `BTreeSet<PlayerId>` is a finite set, and indexing a
vector returns a default outside its range; the invariants of
`TokenHoldem.Domain.Betting` show that every index used is in range.
-/

namespace TokenHoldem

open Library Chips

inductive Street where
  | preflop
  | flop
  | turn
  | river
  | showdown
  | complete
deriving DecidableEq, Repr

inductive SeatStatus where
  | active
  | folded
  | allIn
deriving DecidableEq, Repr, Inhabited

inductive PlayerAction where
  | fold
  | check
  | call
  | raiseTo (target : Chips)
deriving DecidableEq

structure SeatState where
  playerId : PlayerId
  startingStack : Chips
  stack : Chips
  totalCommitted : Chips
  streetCommitted : Chips
  status : SeatStatus
deriving DecidableEq, Inhabited

structure PlayerSettlement where
  playerId : PlayerId
  startingStack : Chips
  endingStack : Chips
  delta : Int
deriving DecidableEq

structure HoldemSettlement where
  players : List PlayerSettlement
deriving DecidableEq

inductive ActionOutcome where
  | waitingFor (player : PlayerId)
  | streetAdvanced (street : Street) (next : Option PlayerId)
  | showdownReady
  | handComplete (settlement : HoldemSettlement)
deriving DecidableEq

/-- The errors of the betting engine. `InvalidCardRank` and `InvalidDeckIndex`
belong to the constructors of `Card` and are not raised here. -/
inductive HoldemError where
  | invalidSeatCount
  | invalidDealerIndex
  | duplicatePlayer
  | stackOutsideBuyInRange
  | noActionExpected
  | outOfTurn
  | cannotCheck
  | nothingToCall
  | raiseMustIncreaseBet
  | raiseNotReopened
  | insufficientStack
  | raiseBelowMinimum (minimumTarget : Chips)
  | showdownNotReady
  | missingHoleCards
  | duplicateCard
  | unknownPlayer
  | chipOverflow
  | stateInvariant
deriving DecidableEq

structure HoldemHand where
  level : StakeLevel
  dealerIndex : Nat
  street : Street
  seats : List SeatState
  pending : Finset PlayerId
  raiseRights : Finset PlayerId
  currentBet : Chips
  lastFullRaise : Chips
  nextToAct : Option Nat
deriving DecidableEq

/-- A method on a hand: it may fail, and a failure keeps the changes made so far. -/
abbrev HandM := EStateM HoldemError HoldemHand

namespace HoldemHand

/-! ## Reading a hand -/

variable (h : HoldemHand)

/-- `self.seats[index]`. -/
def seatAt (index : Nat) : SeatState := h.seats.getD index default

variable (player : PlayerId)

/-- The index behind `seat` and `seat_mut`: the first seat of the player. -/
def seatIndex : Option Nat :=
  h.seats.findIdx? (·.playerId = player)

def seat : Option SeatState :=
  h.seats.find? (·.playerId = player)

def nextPlayer : Option PlayerId :=
  h.nextToAct.map fun index => (h.seatAt index).playerId

def remainingContenders : List PlayerId :=
  (h.seats.filter (·.status ≠ .folded)).map (·.playerId)

def actionablePlayers (excluded : Option PlayerId) : Finset PlayerId :=
  ((h.seats.filter fun s => s.status = .active ∧ some s.playerId ≠ excluded).map
    (·.playerId)).toFinset

def nextPendingFrom (start : Nat) : Option Nat :=
  ((List.range h.seats.length).map fun offset => (start + offset) % h.seats.length).find?
    fun index => (h.seatAt index).playerId ∈ h.pending

/-- `blind_positions`: small blind, big blind and the first seat to act. -/
def blindPositions : Nat × Nat × Nat :=
  if h.seats.length = 2 then
    (h.dealerIndex, (h.dealerIndex + 1) % 2, h.dealerIndex)
  else
    ((h.dealerIndex + 1) % h.seats.length, (h.dealerIndex + 2) % h.seats.length,
      (h.dealerIndex + 3) % h.seats.length)

/-- The checked sum of all commitments, as `pot` and `finish_uncontested` form it. -/
def sumCommitted : Option Chips :=
  h.seats.foldlM (fun total seat => total.checkedAdd seat.totalCommitted) zero

/-! ## Updating a hand -/

/-- `self.seats[index] = f(self.seats[index])`. -/
def updateSeat (index : Nat) (f : SeatState → SeatState) : HoldemHand :=
  { h with seats := h.seats.modify index f }

def resetPendingForStreet : HoldemHand :=
  { h with pending := h.actionablePlayers none, raiseRights := h.actionablePlayers none }

def consumeAction : HoldemHand :=
  { h with pending := h.pending.erase player, raiseRights := h.raiseRights.erase player }

end HoldemHand

open HoldemHand

/-- `commit`. The three amounts are written one after the other, each after its
own checked operation. -/
def commit (index : Nat) (requested : Chips) : HandM Unit := do
  let seat := (← get).seatAt index
  let amount := requested.least seat.stack
  let stack ← orThrow .stateInvariant (seat.stack.checkedSub amount)
  modify (·.updateSeat index fun s => { s with stack := stack })
  let total ← orThrow .chipOverflow (seat.totalCommitted.checkedAdd amount)
  modify (·.updateSeat index fun s => { s with totalCommitted := total })
  let street ← orThrow .chipOverflow (seat.streetCommitted.checkedAdd amount)
  modify (·.updateSeat index fun s => { s with streetCommitted := street })
  if stack = zero then
    modify (·.updateSeat index fun s => { s with status := .allIn })
  else
    pure ()

/-! ## Settlement -/

def award (player : PlayerId) (amount : Chips) : HandM Unit := do
  let h ← get
  let index ← orThrow .unknownPlayer (h.seatIndex player)
  let stack ← orThrow .chipOverflow ((h.seatAt index).stack.checkedAdd amount)
  modify (·.updateSeat index fun s => { s with stack := stack })

/-- Award one amount to each player of a list, in order. -/
def awardEach (amount : Chips) : List PlayerId → HandM Unit
  | [] => pure ()
  | winner :: rest => do
    award winner amount
    awardEach amount rest

variable (h : HoldemHand)

/-- The players of the seats, starting with the seat after the dealer. -/
def HoldemHand.seatOrder : List PlayerId :=
  (List.range h.seats.length).map fun k =>
    (h.seatAt ((h.dealerIndex + (k + 1)) % h.seats.length)).playerId

/-- `award_split`: equal shares, then single odd chips in seat order from the
seat after the dealer. -/
def awardSplit (pot : Chips) (winners : List PlayerId) : HandM Unit := do
  awardEach (pot.div winners.length) winners
  let ordered := (← get).seatOrder.filter (· ∈ winners)
  awardEach one (ordered.take (pot.value % winners.length))

namespace HoldemHand

/-- The settlement record of each seat. -/
def playerSettlements (h : HoldemHand) : List PlayerSettlement :=
  h.seats.map fun seat =>
    { playerId := seat.playerId
      startingStack := seat.startingStack
      endingStack := seat.stack
      delta := (seat.stack.value : Int) - seat.startingStack.value }

/-- `total_delta` of `build_settlement`. -/
def totalDelta (h : HoldemHand) : Int := (h.playerSettlements.map (·.delta)).sum

end HoldemHand

def buildSettlement : HandM HoldemSettlement := do
  let h ← get
  if h.totalDelta ≠ 0 then throw .stateInvariant
  else pure ⟨h.playerSettlements⟩

/-- `finish_uncontested` before its settlement: the winner is paid and the hand
completed. `next_to_act` stays as it was. -/
def payUncontested (winner : PlayerId) : HandM Unit := do
  let pot ← orThrow .chipOverflow (← get).sumCommitted
  award winner pot
  modify fun h => { h with street := .complete }

def finishUncontested (winner : PlayerId) : HandM HoldemSettlement := do
  payUncontested winner
  buildSettlement

/-! ## Betting -/

namespace HoldemHand

variable (h : HoldemHand)

/-- After a full raise every other active player may act and raise again. -/
def reopenAll (raiser : PlayerId) (fullRaise : Chips) : HoldemHand :=
  { h with
    lastFullRaise := fullRaise
    pending := h.actionablePlayers (some raiser)
    raiseRights := h.actionablePlayers (some raiser) }

/-- The active seats that have not matched the bet. -/
def seatsBehind : List SeatState :=
  h.seats.filter fun s => s.status = .active ∧ s.streetCommitted.value < h.currentBet.value

/-- After a short all-in the seats behind the bet must answer it, and those that
face at least a full raise may raise again. -/
def reopenBehind : HoldemHand :=
  { h with
    pending := h.pending ∪ (h.seatsBehind.map (·.playerId)).toFinset
    raiseRights := h.raiseRights ∪ ((h.seatsBehind.filter fun s =>
      h.lastFullRaise.value ≤ h.currentBet.value - s.streetCommitted.value).map
        (·.playerId)).toFinset }

end HoldemHand

variable (actorIndex : Nat)

/-- `raise_to`, after its checks: the raise is paid and the turn order rebuilt. -/
def placeRaise (player : PlayerId) (target additional minimumTarget : Chips) : HandM Unit := do
  let previousBet := (← get).currentBet
  commit actorIndex additional
  modify fun h => { h.consumeAction player with currentBet := target }
  if minimumTarget.value ≤ target.value then do
    let fullRaise ← orThrow .stateInvariant (target.checkedSub previousBet)
    modify (·.reopenAll player fullRaise)
  else
    modify reopenBehind

def HoldemHand.minimumRaiseTo : Option Chips :=
  h.currentBet.checkedAdd h.lastFullRaise

/-- The `minimum_target` of `raise_to`; `none` is its overflow. -/
def HoldemHand.minimumTarget : Option Chips :=
  if h.currentBet = zero then some h.level.bigBlind else h.minimumRaiseTo

def raiseTo (target : Chips) : HandM Unit := do
  let h ← get
  let seat := h.seatAt actorIndex
  if seat.playerId ∉ h.raiseRights then throw .raiseNotReopened
  else if target.value ≤ h.currentBet.value ∨ target.value ≤ seat.streetCommitted.value then
    throw .raiseMustIncreaseBet
  else do
    let additional ← orThrow .stateInvariant (target.checkedSub seat.streetCommitted)
    if seat.stack.value < additional.value then throw .insufficientStack
    else do
      let minimumTarget ← orThrow .chipOverflow h.minimumTarget
      if target.value < minimumTarget.value ∧ additional ≠ seat.stack then
        throw (.raiseBelowMinimum minimumTarget)
      else placeRaise actorIndex seat.playerId target additional minimumTarget

/-- The `match action` of `act`. -/
def applyAction (playerId : PlayerId) : PlayerAction → HandM Unit
  | .fold => do
    modify (·.updateSeat actorIndex fun s => { s with status := .folded })
    modify (·.consumeAction playerId)
  | .check => do
    let h ← get
    if (h.seatAt actorIndex).streetCommitted ≠ h.currentBet then throw .cannotCheck
    else modify (·.consumeAction playerId)
  | .call => do
    let h ← get
    let seat := h.seatAt actorIndex
    let needed := h.currentBet.saturatingSub seat.streetCommitted
    if needed = zero then throw .nothingToCall
    else do
      commit actorIndex (needed.least seat.stack)
      modify (·.consumeAction playerId)
  | .raiseTo target => raiseTo actorIndex target

/-- The street after a betting round; there is none after the river has led to
the showdown. -/
def Street.next? : Street → Option Street
  | .preflop => some .flop
  | .flop => some .turn
  | .turn => some .river
  | .river => some .showdown
  | .showdown => none
  | .complete => none

namespace HoldemHand

/-- A new betting round: bets are cleared and every active seat may act, from
the seat after the dealer on. -/
def openStreet (h : HoldemHand) : HoldemHand :=
  let cleared := { h with
    seats := h.seats.map fun s : SeatState => { s with streetCommitted := zero }
    currentBet := zero
    lastFullRaise := h.level.bigBlind }
  let reset := cleared.resetPendingForStreet
  { reset with nextToAct := reset.nextPendingFrom ((h.dealerIndex + 1) % h.seats.length) }

end HoldemHand

/-- The body of `advance_street`, with its recursive call as a parameter. -/
def advanceStreetStep (again : HandM ActionOutcome) : HandM ActionOutcome := do
  let street ← orThrow .stateInvariant (← get).street.next?
  modify fun h => { h with street := street }
  if street = .showdown then do
    modify fun h => { h with nextToAct := none }
    pure .showdownReady
  else do
    modify openStreet
    let h ← get
    if h.pending.card < 2 then do
      modify fun h => { h with pending := ∅ }
      again
    else
      pure (.streetAdvanced h.street h.nextPlayer)

/-- `advance_street` with its recursion cut off after so many calls. -/
def advanceStreetWithin : Nat → HandM ActionOutcome
  | 0 => throw .stateInvariant
  | calls + 1 => advanceStreetStep (advanceStreetWithin calls)

/-- `advance_street`. Each call moves one street forward, so five calls are never
used up and this is the recursion of the source: see `advanceStreet_eq`. -/
def advanceStreet : HandM ActionOutcome := advanceStreetWithin 5

/-- The part of `act` after the action has been applied. -/
def resolveTurn : HandM ActionOutcome := do
  let h ← get
  match h.remainingContenders with
  | [winner] => do
    let settlement ← finishUncontested winner
    pure (.handComplete settlement)
  | _ =>
    if h.pending = ∅ then advanceStreet
    else do
      modify fun h => { h with
        nextToAct := h.nextPendingFrom ((actorIndex + 1) % h.seats.length) }
      let player ← orThrow .stateInvariant (← get).nextPlayer
      pure (.waitingFor player)

def act (playerId : PlayerId) (action : PlayerAction) : HandM ActionOutcome := do
  let h ← get
  let actorIndex ← orThrow .noActionExpected h.nextToAct
  if (h.seatAt actorIndex).playerId ≠ playerId then throw .outOfTurn
  else do
    applyAction actorIndex playerId action
    resolveTurn actorIndex

/-! ## Showdown -/

/-- `[Card; 5]`. -/
abbrev Board := Vector Card 5

/-- The hole cards shown by the players that reveal them. -/
abbrev HoleCards := PlayerId → Option (Card × Card)

namespace HoldemHand

variable (h : HoldemHand)

/-- The players' cards in the order in which the duplicate check reads them:
the board, then the two cards of each contender. -/
def shownCards (board : Board) (holeCards : HoleCards) : List Card :=
  board.toList ++ h.remainingContenders.flatMap fun player =>
    match holeCards player with
    | some (first, second) => [first, second]
    | none => []

/-- The distinct positive commitments in increasing order. -/
def thresholds : List Chips :=
  ((h.seats.map (·.totalCommitted)).filter (0 < ·.value)).dedup.insertionSort (· ≤ ·)

/-- The seats that reach a layer. -/
def contributorsAt (threshold : Nat) : List SeatState :=
  h.seats.filter fun seat => threshold ≤ seat.totalCommitted.value

/-- The contenders that reach a layer. -/
def eligibleAt (contenders : List PlayerId) (threshold : Nat) : List PlayerId :=
  contenders.filter fun player =>
    (h.seat player).any fun seat => threshold ≤ seat.totalCommitted.value

end HoldemHand

variable (board : Board)

variable (holeCards : HoleCards)

/-- The rank of a contender's seven cards. -/
def rankOf (player : PlayerId) : HandRank :=
  match holeCards player with
  | some (first, second) => evaluateSeven (first :: second :: board.toList)
  | none => evaluateSeven board.toList

/-- The largest rank of a non-empty list. -/
def bestRank (ranks : PlayerId → HandRank) (first : PlayerId) (rest : List PlayerId) : HandRank :=
  rest.foldl (fun best player => max best (ranks player)) (ranks first)

/-- One round of the layer loop of `settle_showdown`. -/
def settleLayer (contenders : List PlayerId) (ranks : PlayerId → HandRank)
    (previous threshold : Chips) : HandM Unit := do
  let h ← get
  let contributors := h.contributorsAt threshold.value
  let pot ← orThrow .chipOverflow
    ((threshold.saturatingSub previous).checkedMul contributors.length)
  match h.eligibleAt contenders threshold.value with
  | [] =>
    match contributors with
    | [sole] => award sole.playerId pot
    | _ => throw .stateInvariant
  | first :: rest =>
    let best := bestRank ranks first rest
    awardSplit pot ((first :: rest).filter fun player => ranks player = best)

/-- The layer loop of `settle_showdown`. -/
def settleLayers (contenders : List PlayerId) (ranks : PlayerId → HandRank) :
    Chips → List Chips → HandM Unit
  | _, [] => pure ()
  | previous, threshold :: rest => do
    settleLayer contenders ranks previous threshold
    settleLayers contenders ranks threshold rest

/-- `settle_showdown` before its settlement: the cards are checked, the layers
paid and the hand completed. -/
def payShowdown : HandM Unit := do
  let h ← get
  if h.street ≠ .showdown then throw .showdownNotReady
  else if h.remainingContenders.any fun player => (holeCards player).isNone then
    throw .missingHoleCards
  else if ¬(h.shownCards board holeCards).Nodup then throw .duplicateCard
  else do
    settleLayers h.remainingContenders (rankOf board holeCards) zero h.thresholds
    modify fun h => { h with street := .complete }

def settleShowdown : HandM HoldemSettlement := do
  payShowdown board holeCards
  buildSettlement

/-! ## Starting a hand -/

/-- The hand that `start` builds before the blinds are posted. -/
def HoldemHand.initial (level : StakeLevel) (seats : List (PlayerId × Chips))
    (dealerIndex : Nat) : HoldemHand where
  level := level
  dealerIndex := dealerIndex
  street := .preflop
  seats := seats.map fun (playerId, stack) =>
    { playerId, startingStack := stack, stack, totalCommitted := zero
      streetCommitted := zero, status := .active }
  pending := ∅
  raiseRights := ∅
  currentBet := level.bigBlind
  lastFullRaise := level.bigBlind
  nextToAct := none

/-- The blinds and the first turn. -/
def postBlinds : HandM Unit := do
  let h ← get
  let (smallBlindIndex, bigBlindIndex, firstToAct) := h.blindPositions
  commit smallBlindIndex h.level.smallBlind
  commit bigBlindIndex h.level.bigBlind
  modify resetPendingForStreet
  modify fun h => { h with nextToAct := h.nextPendingFrom firstToAct }

def HoldemHand.start (level : StakeLevel) (seats : List (PlayerId × Chips)) (dealerIndex : Nat) :
    Except HoldemError HoldemHand :=
  if seats.length < level.minimumPlayers.toNat ∨ level.maximumPlayers.toNat < seats.length then
    .error .invalidSeatCount
  else if seats.length ≤ dealerIndex then .error .invalidDealerIndex
  else if (seats.map (·.1)).toFinset.card ≠ seats.length then .error .duplicatePlayer
  else if seats.any fun (_, stack) =>
      stack.value < level.minimumBuyIn.value || level.maximumBuyIn.value < stack.value then
    .error .stackOutsideBuyInRange
  else match postBlinds.run (initial level seats dealerIndex) with
    | .ok _ hand => .ok hand
    | .error e _ => .error e

end TokenHoldem
