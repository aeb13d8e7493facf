import TokenHoldem.Domain.StakeLevel
import TokenHoldem.Library.Checked
import TokenHoldem.Library.Collections
import TokenHoldem.Primitives

/-!
# Hand receipts

`token-holdem-domain/src/receipt.rs`: the record of a settled hand that every
participant signs. A valid receipt names each player once, in order
(`checkOrder_eq_ok_iff`).
-/

namespace TokenHoldem

open Library

/-- `MatchId`: 16 bytes. -/
abbrev MatchId := FixedBytes 16

/-- The first 16 bytes of the table's identifier. -/
def MatchId.ofTable (tableId : TableId) : MatchId :=
  ⟨tableId.bytes.val / 256 ^ 16, by
    have := tableId.bytes.lt
    omega⟩

structure HandOutcome where
  playerId : PlayerId
  devicePublicKey : DevicePublicKey
  startingStack : Chips
  endingStack : Chips
deriving DecidableEq

def HandOutcome.delta (outcome : HandOutcome) : Int :=
  (outcome.endingStack.value : Int) - outcome.startingStack.value

structure HandReceipt where
  version : UInt8
  matchId : MatchId
  handNumber : UInt64
  stakeLevelId : String
  transcriptHash : Bytes32
  settledAtUnixMs : UInt64
  outcomes : List HandOutcome
deriving DecidableEq

inductive ReceiptError where
  | unsupportedVersion (version : UInt8)
  | emptyStakeLevelId
  | notEnoughPlayers
  | duplicatePlayer (playerId : PlayerId)
  | duplicateDevice (devicePublicKey : DevicePublicKey)
  | nonCanonicalPlayerOrder
  | notZeroSum (totalStart totalEnd : Nat)
  | overflow
deriving DecidableEq

namespace HandReceipt

/-- The loop of `validate` over neighbouring outcomes. -/
def checkOrder : List HandOutcome → Except ReceiptError Unit
  | first :: second :: rest => do
    ensure (first.playerId ≠ second.playerId) (.duplicatePlayer first.playerId)
    ensure (¬second.playerId < first.playerId) .nonCanonicalPlayerOrder
    checkOrder (second :: rest)
  | _ => .ok ()

/-- `u128::checked_add`. -/
def checkedAdd128 (a b : Nat) : Option Nat := if a + b < 2 ^ 128 then some (a + b) else none

/-- The loop of `validate` over the devices and the stacks. -/
def sumStacks : List DevicePublicKey → Nat × Nat → List HandOutcome →
    Except ReceiptError (Nat × Nat)
  | _, totals, [] => .ok totals
  | devices, (totalStart, totalEnd), outcome :: rest => do
    ensure (outcome.devicePublicKey ∉ devices) (.duplicateDevice outcome.devicePublicKey)
    let totalStart ← okOr .overflow (checkedAdd128 totalStart outcome.startingStack.value)
    let totalEnd ← okOr .overflow (checkedAdd128 totalEnd outcome.endingStack.value)
    sumStacks (outcome.devicePublicKey :: devices) (totalStart, totalEnd) rest

variable (receipt : HandReceipt)

def validate : Except ReceiptError Unit := do
  ensure (receipt.version = 1) (.unsupportedVersion receipt.version)
  ensure (isBlank receipt.stakeLevelId = false) .emptyStakeLevelId
  ensure (2 ≤ receipt.outcomes.length) .notEnoughPlayers
  checkOrder receipt.outcomes
  let totals ← sumStacks [] (0, 0) receipt.outcomes
  ensure (totals.1 = totals.2) (.notZeroSum totals.1 totals.2)

/-- The receipt that `settle` forms, before it is validated. -/
def form (matchId : MatchId) (handNumber : UInt64) (stakeLevelId : String)
    (transcriptHash : Bytes32) (settledAtUnixMs : UInt64) (outcomes : List HandOutcome) :
    HandReceipt where
  version := 1
  matchId := matchId
  handNumber := handNumber
  stakeLevelId := stakeLevelId
  transcriptHash := transcriptHash
  settledAtUnixMs := settledAtUnixMs
  outcomes := sortByKey HandOutcome.playerId outcomes

def settle (matchId : MatchId) (handNumber : UInt64) (stakeLevelId : String)
    (transcriptHash : Bytes32) (settledAtUnixMs : UInt64) (outcomes : List HandOutcome) :
    Except ReceiptError HandReceipt := do
  ensure (isBlank stakeLevelId = false) .emptyStakeLevelId
  ensure (2 ≤ outcomes.length) .notEnoughPlayers
  let receipt := form matchId handNumber stakeLevelId transcriptHash settledAtUnixMs outcomes
  receipt.validate
  return receipt

/-- `HandReceipt::outcome_for`. The source searches the outcomes by bisection
(`searchOutcome`), which finds the same on every valid receipt. -/
def outcomeFor (playerId : PlayerId) : Option HandOutcome :=
  receipt.outcomes.find? (·.playerId = playerId)

def canonicalBytes : Bytes :=
  textBytes "token-holdem/hand-receipt/v1\x00" ++ [receipt.version] ++ receipt.matchId.toBytes
    ++ u64Bytes receipt.handNumber ++ writeBytes (textBytes receipt.stakeLevelId)
    ++ receipt.transcriptHash.toBytes ++ u64Bytes receipt.settledAtUnixMs
    ++ u32Bytes receipt.outcomes.length ++ receipt.outcomes.flatMap fun outcome =>
      outcome.playerId.asBytes ++ outcome.devicePublicKey.asBytes
        ++ outcome.startingStack.toBytes ++ outcome.endingStack.toBytes

def id (P : Primitives) (receipt : HandReceipt) : HandId := ⟨P.hash receipt.canonicalBytes⟩

/-! ## Valid receipts -/

variable {outcomes : List HandOutcome}

theorem checkOrder_eq_ok_iff {u : Unit} :
    checkOrder outcomes = .ok u ↔ outcomes.Pairwise fun a b => a.playerId < b.playerId := by
  rw [← List.isChain_iff_pairwise]
  induction outcomes with
  | nil => simp [checkOrder]
  | cons first rest ih =>
    cases rest with
    | nil => simp [checkOrder]
    | cons second rest =>
      rw [checkOrder, ensure_bind_eq_ok, ensure_bind_eq_ok, ih, List.isChain_cons_cons, ← and_assoc]
      refine and_congr_left fun _ => ?_
      rw [not_lt, and_comm, lt_iff_le_and_ne]

theorem checkedAdd128_eq_some {a b c : Nat} (h : checkedAdd128 a b = some c) : c = a + b := by
  unfold checkedAdd128 at h
  split at h
  · exact (Option.some.inj h).symm
  · cases h

end HandReceipt

end TokenHoldem
