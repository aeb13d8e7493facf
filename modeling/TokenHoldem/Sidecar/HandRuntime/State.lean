import TokenHoldem.Domain.PublicState
import TokenHoldem.Library.Traced
import TokenHoldem.Sidecar.ReceiptRuntime
import TokenHoldem.Sidecar.TableSession.State

/-!
# The state of a running hand

`ActiveHand` of `token-holdem-sidecar/src/hand_runtime.rs`, with the functions
that only read it. A method that takes `&mut self` is a computation in
`ActiveHandM`: a failed call keeps what it has done, and the trace lists what it
has sent, created and committed.

Left out are the fields of the delivery layer (topics, outboxes, retries, the
identifiers of messages already relayed) and the data of the events for the user
interface. An event is built at the places where the source builds it, because
building one can fail (`progress`, `stateEvent`).
-/

namespace TokenHoldem

open Library Std

/-- The libraries that a hand needs besides those of the session. -/
structure HandPrimitives extends Primitives where
  ziffle : Ziffle
  /-- `cbor4ii::serde::to_vec` of an action. -/
  cborAction : SignedHandAction → Bytes

/-! ## Data -/

inductive RevealReason where
  | street
  | showdown

inductive ActionOrigin where
  | «local»
  | remote
deriving DecidableEq

structure ActionConflictEvidence where
  sequence : Nat
  acceptedActionHash : Bytes32
  conflictingActionHash : Bytes32

structure PendingReveal where
  reason : RevealReason
  indices : List UInt8

/-- Shares by card, and for each card by seat. -/
abbrev Shares := TreeMap UInt8 (TreeMap UInt8 RevealSharePacket)

/-- `shares.entry(card).or_default()`. -/
def Shares.of (shares : Shares) (cardIndex : UInt8) : TreeMap UInt8 RevealSharePacket :=
  (shares[cardIndex]?).getD ∅

structure ActiveHand (Z : Ziffle) where
  table : ReadyTable
  handNumber : UInt64
  dealerIndex : Nat
  engine : MentalPokerEngine
  localKey : PlayerKeyMaterial Z
  announcements : TreeMap UInt8 KeyAnnouncement
  verifiedKeys : Option (List Z.VerifiedPublicKey)
  aggregateKey : Option Z.AggregatePublicKey
  shufflePackets : TreeMap UInt8 ShufflePacket
  shuffleStage : UInt8
  deck : Option (VerifiedDeck Z)
  holeDistributionStarted : Bool
  holeShares : Shares
  localHoleCards : Option (Card × Card)
  readySeats : Finset UInt8
  publicShares : Shares
  publicCards : TreeMap UInt8 Card
  pendingReveal : Option PendingReveal
  hand : Option HoldemHand
  sequence : Nat
  committedActions : TreeMap Nat SignedHandAction
  pendingActions : TreeMap Nat SignedHandAction
  actionConflict : Option ActionConflictEvidence
  mentalTranscript : ProtocolTranscript
  /-- The bytes that the hasher of the actions has been fed. -/
  actionTranscript : Bytes
  lastActionAtUnixMs : Option UInt64
  turnStartedAtUnixMs : Option UInt64
  receiptConsensus : Option ReceiptConsensus
  pendingReceiptSignatures : TreeMap PlayerId (HandReceipt × ParticipantSignature)
  finalizedReceipt : Option CoSignedReceipt
  safeLeaveRequested : Bool
  disconnectedPeers : Finset PeerId
  settled : Bool

/-- `OsRng`, for one call: the draw for the local shuffle, and one for each share. -/
structure Draws (Z : Ziffle) where
  shuffle : Z.Seed
  holeShare : UInt8 → Z.Seed
  publicShare : UInt8 → Z.Seed

structure HandExecutionContext (Z : Ziffle) where
  nowUnixMs : UInt64
  device : DeviceIdentity
  certificate : DeviceCertificate
  draws : Draws Z

/-- What a call leaves behind besides the new state. -/
inductive HandEffect (Z : Ziffle) where
  /-- `queue_public_message`: to every seat of the table. -/
  | sentPublic (message : HandPublicMessage)
  /-- `relay_verified_public_message`: a message of another seat is passed on. -/
  | relayed (message : HandPublicMessage)
  /-- `queue_direct_message` of a private message. -/
  | sentPrivate (peer : PeerId) (message : HandPrivateMessage)
  /-- `begin_hole_distribution` has created a share for a hole card of seat `owner`. -/
  | createdHoleShare (owner : Nat) (cardIndex : UInt8) (packet : RevealSharePacket)
  /-- `request_public_reveal` has created a share, in the state `before`. -/
  | createdPublicShare (before : ActiveHand Z) (cardIndex : UInt8) (packet : RevealSharePacket)
  /-- `commit_deferred_actions` takes up an action that had been put off. -/
  | resumed (sequence : Nat) (action : SignedHandAction)
  /-- `commit_action` has accepted an action in the state `before`. -/
  | committed (before : ActiveHand Z) (origin : ActionOrigin) (sequence : Nat)
      (action : SignedHandAction)
  /-- `settle_showdown` is called in the state `before`. -/
  | showdown (before : ActiveHand Z)
  /-- `finish_settlement` is called in the state `before`. -/
  | settling (before : ActiveHand Z) (execution : HandExecutionContext Z)
  /-- `try_finalize_receipt` has the signatures of all players. -/
  | finalized (receipt : CoSignedReceipt)

/-- A hand in the middle of a call, with what the call has done so far. -/
abbrev TracedHand (Z : Ziffle) := Traced (ActiveHand Z) (HandEffect Z)

abbrev ActiveHandM (Z : Ziffle) := TracedM HandError (ActiveHand Z) (HandEffect Z)

/-! ## Small functions -/

/-- `u8::try_from(value)`. -/
def tryU8 (value : Nat) : Option UInt8 := if value < 256 then some (UInt8.ofNat value) else none

theorem tryU8_eq_some {value : Nat} {byte : UInt8} :
    tryU8 value = some byte ↔ byte.toNat = value := by
  unfold tryU8
  split
  · rw [Option.some_inj, ← UInt8.toNat_inj, UInt8.toNat_ofNat_of_lt' ‹_›, eq_comm]
  · have := byte.toNat_lt
    exact iff_of_false (by simp) (by omega)

/-- `u8::saturating_add`. -/
def saturatingAddU8 (a b : UInt8) : UInt8 := if a.toNat + b.toNat < 256 then a + b else 255

/-- `u8::try_from(index).context("座位超出范围")?`. -/
def seatU8 (index : Nat) : Except HandError UInt8 := okOr (.message "座位超出范围") (tryU8 index)

/-- `usize::from(seat.checked_sub(1).context(text)?)`. -/
def seatIndex (text : String) (seat : UInt8) : Except HandError Nat :=
  if seat = 0 then .error (.message text) else .ok (seat.toNat - 1)

/-- An index into a vector that is out of bounds. -/
def outOfBounds : HandError := .message "index out of bounds"

def insertConsistent {κ ν : Type} [Ord κ] [DecidableEq ν] (map : TreeMap κ ν) (key : κ)
    (value : ν) (label : String) : Except HandError (TreeMap κ ν) :=
  match map[key]? with
  | some existing =>
    if existing = value then .ok map
    else .error (.message (label ++ "出现互相冲突的重复消息"))
  | none => .ok (map.insert key value)

/-- A consistent insertion changes nothing or adds a fresh key. -/
theorem insertConsistent_eq_ok {κ ν : Type} [Ord κ] [DecidableEq ν] {map map' : TreeMap κ ν}
    {key : κ} {value : ν} {label : String} (h : insertConsistent map key value label = .ok map') :
    map[key]? = some value ∧ map' = map ∨ map[key]? = none ∧ map' = map.insert key value := by
  unfold insertConsistent at h
  cases hkey : map[key]? with
  | none =>
    rw [hkey] at h
    exact .inr ⟨rfl, (Except.ok.inj h).symm⟩
  | some existing =>
    simp only [hkey] at h
    split at h
    next heq => exact .inl ⟨by rw [heq], (Except.ok.inj h).symm⟩
    · exact nomatch h

def isRelayablePublicMessage : HandPublicMessage → Bool
  | .communityRevealShare .. => true
  | .receiptSignature .. => true
  | .actionCommitted .. => true
  | _ => false

def holeIndices (seatIndex : Nat) : UInt8 × UInt8 :=
  let first := (tryU8 (seatIndex * 2)).getD 255
  (first, saturatingAddU8 first 1)

/-- The two hole cards of a seat as a list, for the loops over them. -/
def holeIndexList (seatIndex : Nat) : List UInt8 :=
  [(holeIndices seatIndex).1, (holeIndices seatIndex).2]

def boardIndices (playerCount : Nat) : Vector UInt8 5 :=
  let base := (tryU8 (playerCount * 2)).getD 255
  #v[saturatingAddU8 base 1, saturatingAddU8 base 2, saturatingAddU8 base 3,
    saturatingAddU8 base 5, saturatingAddU8 base 7]

def flopIndices (playerCount : Nat) : List UInt8 :=
  [(boardIndices playerCount)[0], (boardIndices playerCount)[1], (boardIndices playerCount)[2]]

def turnIndex (playerCount : Nat) : UInt8 := (boardIndices playerCount)[3]

def riverIndex (playerCount : Nat) : UInt8 := (boardIndices playerCount)[4]

/-- The cards of a street that begins. -/
def streetIndices (playerCount : Nat) : Street → Except HandError (List UInt8)
  | .flop => .ok (flopIndices playerCount)
  | .turn => .ok [turnIndex playerCount]
  | .river => .ok [riverIndex playerCount]
  | _ => .error (.message "动作推进到了不支持的街道")

/-- The cards of a showdown: the board and the hole cards of the contenders. -/
def showdownIndices (playerCount : Nat) (hand : HoldemHand) : List UInt8 :=
  (boardIndices playerCount).toList ++ hand.seats.zipIdx.flatMap fun entry =>
    if entry.1.status ≠ .folded then holeIndexList entry.2 else []

def suitTag : Suit → UInt8
  | .clubs => 0
  | .diamonds => 1
  | .hearts => 2
  | .spades => 3

def timeoutAction (toCall : Chips) : PlayerAction := if toCall = Chips.zero then .check else .fold

def turnActionTimeoutMs : UInt64 := 30000

/-! ## Reading the state -/

namespace ActiveHand

variable {Z : Ziffle} (active : ActiveHand Z)

def playerCount : Nat := active.table.players.length

def AllPlayersReady : Prop := active.readySeats.card = active.playerCount
deriving Decidable

def localPlayer : PlayerId := active.table.players.getD active.table.localSeat default

def localSeatU8 : Except HandError UInt8 :=
  okOr (.message "本地座位超出范围") (tryU8 (active.table.localSeat + 1))

/-- The scope of the messages of this hand. -/
def scope : HandScope where
  tableId := active.table.tableId
  handNumber := active.handNumber
  rosterHash := active.table.rosterHash

/-- `self.hand.as_ref().context(text)?`. -/
def betting (text : String) : Except HandError HoldemHand := okOr (.message text) active.hand

/-- `progress`: the event can be built. -/
def progress (completed : Nat) : Except HandError Unit := do
  let _ ← okOr (.message "协议进度超出范围") (tryU8 completed)
  let _ ← okOr (.message "玩家数超出范围") (tryU8 active.playerCount)
  return ()

variable (P : Primitives)

/-- The bytes that `public_state_hash` hashes, for a betting state. -/
def publicStateBytes (hand : HoldemHand) : Bytes :=
  textBytes "token-holdem/public-hand-state/v1\x00" ++ active.table.tableId.asBytes
    ++ u64Bytes active.handNumber ++ active.table.rosterHash.toBytes
    ++ beBytes 8 active.sequence ++ (hand.publicStateHash P).toBytes
    ++ (active.mentalTranscript.hash P).toBytes ++ (P.hash active.actionTranscript).toBytes
    ++ [UInt8.ofNat active.publicCards.size]
    ++ active.publicCards.toList.flatMap fun entry =>
      [entry.1, UInt8.ofNat entry.2.rank, suitTag entry.2.suit]

def publicStateHash : Except HandError Bytes32 := do
  let hand ← active.betting "下注状态缺失"
  return P.hash (active.publicStateBytes P hand)

def transcriptHashBytes : Bytes32 :=
  P.hash (textBytes "token-holdem/combined-hand-transcript/v1\x00"
    ++ (active.mentalTranscript.hash P).toBytes ++ (P.hash active.actionTranscript).toBytes)

/-- `state_event`: the event can be built. -/
def stateEvent : Except HandError Unit := do
  let hand ← active.betting "下注状态缺失"
  let seat ← okOr (.message "本地座位状态缺失") hand.seats[active.table.localSeat]?
  let _ ← okOr (.message "本地最大加注额溢出") (seat.streetCommitted.checkedAdd seat.stack)
  let _ ← withContext "底池计算失败" .holdem hand.pot
  let _ ← active.localSeatU8
  let _ ← withContext "无法计算本地跟注额" .holdem (hand.amountToCall active.localPlayer)
  let _ ← withContext "无法计算最小加注额" .holdem (okOr .chipOverflow hand.minimumRaiseTo)
  let _ ← active.publicStateHash P
  return ()

def verifyScope (scope : HandScope) : Except HandError Unit := do
  ensure (scope.tableId = active.table.tableId ∧ scope.handNumber = active.handNumber)
    (.message "牌桌消息不属于当前桌或当前手牌")
  ensure (scope.rosterHash = active.table.rosterHash)
    (.message "牌桌消息不属于当前冻结参与者名单")

def verifySeatSource (seat : UInt8) (source : PeerId) : Except HandError Unit := do
  let index ← seatIndex "牌桌消息座位无效" seat
  let expected ← okOr (.message "牌桌消息座位超出范围") active.table.peerIds[index]?
  ensure (expected = source) (.message "牌桌消息源与声明座位的会话 PeerId 不一致")

/-- The seat that `verify_public_source` compares with the source of a message. -/
def claimedSeat : HandPublicMessage → Except HandError UInt8
  | .keyAnnouncement _ seat _ => .ok seat
  | .shuffle _ seat _ => .ok seat
  | .communityRevealShare _ seat _ _ => .ok seat
  | .dealReady _ seat => .ok seat
  | .receiptSignature _ _ signature =>
    okOr (.message "结算签名玩家不属于当前牌桌")
      ((active.table.players.findIdx? (· = signature.playerId)).bind fun index => tryU8 (index + 1))
  | .actionCommitted _ _ action => .ok action.seat

def verifyPublicSource (source : Option PeerId) (message : HandPublicMessage) :
    Except HandError Unit := do
  let source ← okOr (.message "严格签名的牌桌消息缺少源 PeerId") source
  ensure (source ∈ active.table.peerIds) (.message "牌桌消息源不属于冻结参与者名单")
  if isRelayablePublicMessage message then return ()
  else
    let seat ← active.claimedSeat message
    active.verifySeatSource seat source

end ActiveHand

end TokenHoldem
