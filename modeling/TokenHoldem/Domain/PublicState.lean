import TokenHoldem.Domain.Hand
import TokenHoldem.Library.Checked
import TokenHoldem.Library.Collections
import TokenHoldem.Primitives

/-!
# The public state of a betting hand

The rest of `HoldemHand` in `token-holdem-domain/src/holdem.rs`: what the table
shows of a hand, and the digest that players sign before they act.
-/

namespace TokenHoldem

open Library

def streetTag : Street → UInt8
  | .preflop => 0
  | .flop => 1
  | .turn => 2
  | .river => 3
  | .showdown => 4
  | .complete => 5

def seatStatusTag : SeatStatus → UInt8
  | .active => 0
  | .folded => 1
  | .allIn => 2

/-- `append_player_set`. -/
def playerSetBytes (players : Finset PlayerId) : Bytes :=
  UInt8.ofNat players.card :: (sortedElements players).flatMap Identifier.asBytes

namespace HoldemHand

variable (h : HoldemHand)

def pot : Except HoldemError Chips := okOr .chipOverflow h.sumCommitted

def amountToCall (playerId : PlayerId) : Except HoldemError Chips := do
  let seat ← okOr .unknownPlayer (h.seat playerId)
  return h.currentBet.saturatingSub seat.streetCommitted

/-- The bytes that `public_state_hash` hashes. -/
def publicStateBytes : Bytes :=
  let levelId := textBytes h.level.id
  textBytes "token-holdem/public-betting-state/v1\x00" ++ beBytes 8 levelId.length ++ levelId
    ++ h.level.smallBlind.toBytes ++ h.level.bigBlind.toBytes
    ++ [UInt8.ofNat h.dealerIndex, streetTag h.street, UInt8.ofNat h.seats.length]
    ++ (h.seats.flatMap fun seat =>
      seat.playerId.asBytes ++ seat.startingStack.toBytes ++ seat.stack.toBytes
        ++ seat.totalCommitted.toBytes ++ seat.streetCommitted.toBytes
        ++ [seatStatusTag seat.status])
    ++ playerSetBytes h.pending ++ playerSetBytes h.raiseRights ++ h.currentBet.toBytes
    ++ h.lastFullRaise.toBytes ++ match h.nextToAct with
      | some index => [1, UInt8.ofNat index]
      | none => [0, 0]

def publicStateHash (P : Primitives) (h : HoldemHand) : Bytes32 := P.hash h.publicStateBytes

end HoldemHand

end TokenHoldem
