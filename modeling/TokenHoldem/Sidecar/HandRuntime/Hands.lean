import TokenHoldem.Sidecar.HandRuntime.Runtime

/-!
# One hand after the other

`HandRuntime` of `token-holdem-sidecar/src/hand_runtime.rs`: the hand that is being
played, the receipts of earlier hands that nobody has taken yet, and the messages
that have arrived before their hand.

A call is a computation over the runtime. Its trace lists what the hands have done
and which receipts have been taken out. Topics, the decoding of messages and the
bookkeeping of direct requests belong to the delivery layer and are left out.
-/

namespace TokenHoldem

open Library TracedM

/-! ## State -/

/-- `ActiveHand` with its two flags that only `HandRuntime` looks at. -/
structure RunningHand (Z : Ziffle) where
  hand : ActiveHand Z
  finalizedReceiptExported : Bool
  boundaryExported : Bool

inductive InboundHandMessage where
  | «public» (message : HandPublicMessage)
  | «private» (message : HandPrivateMessage)
deriving DecidableEq

def InboundHandMessage.scope : InboundHandMessage → HandScope
  | .public message => message.scope
  | .private message => message.scope

/-- `BufferedInboundHandDelivery`. -/
structure InboundHandDelivery where
  source : PeerId
  message : InboundHandMessage
deriving DecidableEq

structure HandRuntime (Z : Ziffle) where
  active : Option (RunningHand Z)
  pendingExports : List CoSignedReceipt
  earlyMessages : List InboundHandDelivery

/-- `HandRuntime::default()`. -/
def HandRuntime.idle {Z : Ziffle} : HandRuntime Z where
  active := none
  pendingExports := []
  earlyMessages := []

/-- What a call of the runtime leaves behind. -/
inductive RuntimeEffect (Z : Ziffle) where
  | hand (effect : HandEffect Z)
  /-- `take_newly_finalized_receipts` has returned the receipt. -/
  | exported (receipt : CoSignedReceipt)

abbrev HandRuntimeM (Z : Ziffle) := TracedM HandError (HandRuntime Z) (RuntimeEffect Z)

structure HandBoundary where
  receiptHash : HandId
  dealerSeat : PhysicalSeat

def maxEarlyHandMessages : Nat := 128

/-- The call of the hand that a direct message amounts to. -/
def InboundHandDelivery.command {Z : Ziffle} (execution : HandExecutionContext Z)
    (delivery : InboundHandDelivery) : HandCommand Z :=
  match delivery.message with
  | .public message => .publicMessage execution (some delivery.source) message
  | .private message => .privateMessage execution delivery.source message

namespace HandRuntime

variable (L : HandPrimitives)

/-! ## Calls for the active hand -/

/-- A call of the active hand. -/
def onActive {Z : Ziffle} (call : ActiveHandM Z Unit) : HandRuntimeM Z Unit := fun s =>
  match s.active.active with
  | none => .error (.message "尚未建立牌桌会话") s
  | some running =>
    let after := fun t : TracedHand Z =>
      ({ active := { s.active with active := some { running with hand := t.active } }
         trace := s.trace ++ t.trace.map .hand } : Traced (HandRuntime Z) (RuntimeEffect Z))
    match call.run { active := running.hand, trace := [] } with
    | .ok _ t => .ok () (after t)
    | .error e t => .error e (after t)

/-- The methods that pass a call on to the active hand. Without one the clock, the
connections and a request to leave do nothing. -/
def command (call : HandCommand L.ziffle) : HandRuntimeM L.ziffle Unit := do
  let runtime ← getActive
  match call with
  | .publicMessage .. | .privateMessage .. | .submitAction .. => onActive (call.run L)
  | _ => if runtime.active.isNone then pure () else onActive (call.run L)

def shouldBufferNextHand {Z : Ziffle} (runtime : HandRuntime Z) (scope : HandScope) : Bool :=
  match runtime.active with
  | none => true
  | some running =>
    running.hand.finalizedReceipt.isSome && scope.tableId = running.hand.table.tableId &&
      scope.handNumber = saturatingAdd running.hand.handNumber 1

def bufferEarlyMessage {Z : Ziffle} (delivery : InboundHandDelivery) : HandRuntimeM Z Unit := do
  let runtime ← getActive
  if delivery ∈ runtime.earlyMessages then pure ()
  else
    check (runtime.earlyMessages.length < maxEarlyHandMessages)
      (.message "提前到达的下一手消息超过 128 条上限")
    update fun runtime => { runtime with earlyMessages := runtime.earlyMessages ++ [delivery] }

/-- `handle_direct_public` and `handle_private`. -/
def deliver (execution : HandExecutionContext L.ziffle) (delivery : InboundHandDelivery) :
    HandRuntimeM L.ziffle Unit := do
  let runtime ← getActive
  if runtime.shouldBufferNextHand delivery.message.scope then bufferEarlyMessage delivery
  else command L (delivery.command execution)

/-! ## From hand to hand -/

/-- The part of `start` that puts the last hand away. -/
def retire {Z : Ziffle} : HandRuntimeM Z Unit := do
  let runtime ← getActive
  match runtime.active with
  | none => pure ()
  | some completed =>
    update fun runtime => { runtime with active := none }
    let receipt ← expect (okOr (.message "启动下一手时上一手尚未形成联合签名凭证")
      completed.hand.finalizedReceipt)
    if completed.finalizedReceiptExported then pure ()
    else update fun runtime => { runtime with
      pendingExports := runtime.pendingExports ++ [receipt] }

/-- `initialize_hand`: the new hand and what it has done. A hand that fails here is
dropped. -/
def initializeHand (table : ReadyTable) (seed : L.ziffle.Seed)
    (execution : HandExecutionContext L.ziffle) :
    Except HandError (TracedHand L.ziffle) := do
  let active ← initialHand L table seed
  match (beginHand L execution).run { active, trace := [] } with
  | .ok _ begun => return begun
  | .error e _ => throw e

/-- The part of `start` that takes up the new hand. -/
def takeUp {Z : Ziffle} (begun : TracedHand Z) : HandRuntimeM Z Unit :=
  fun s => .ok ()
    { active := { s.active with
        active := some { hand := begun.active, finalizedReceiptExported := false
                         boundaryExported := false } }
      trace := s.trace ++ begun.trace.map .hand }

def start (table : ReadyTable) (seed : L.ziffle.Seed) (execution : HandExecutionContext L.ziffle) :
    HandRuntimeM L.ziffle Unit := do
  check (table.peerIds.length = table.peerAddresses.length)
    (.message "逐手玩家端点数量与 PeerId 数量不一致")
  let begun ← expect (initializeHand L table seed execution)
  retire
  takeUp begun
  let runtime ← getActive
  update fun runtime => { runtime with earlyMessages := [] }
  forEach (fun delivery => attempt (deliver L execution delivery)) runtime.earlyMessages

def leave {Z : Ziffle} : HandRuntimeM Z Unit :=
  update fun runtime => { runtime with active := none }

/-- The hand is the one that a signed leave is about. -/
def InScope {Z : Ziffle} (running : RunningHand Z) (tableId : TableId) (handNumber : UInt64) :
    Prop :=
  running.hand.table.tableId = tableId ∧ running.hand.handNumber = handNumber
deriving Decidable

def abortForSignedLeave {Z : Ziffle} (tableId : TableId) (handNumber : UInt64) :
    HandRuntimeM Z Unit := do
  let runtime ← getActive
  let running ← expect (okOr (.message "待作废的手牌运行时不存在") runtime.active)
  check (InScope running tableId handNumber) (.message "签名离桌证据与当前手牌范围不一致")
  update fun runtime => { runtime with active := none }

/-! ## What a hand leaves behind -/

/-- The checks of `take_hand_boundary`. -/
def boundaryOf (running : RunningHand L.ziffle) (receipt : CoSignedReceipt) :
    Except HandError HandBoundary := do
  let seat ← okOr (.message "本手庄位缺少对应物理席位")
    running.hand.table.physicalSeats[running.hand.dealerIndex]?
  let dealerSeat ← (PhysicalSeat.new seat).mapError fun _ => .message "本手庄家物理席位无效"
  return { receiptHash := receipt.receipt.id L.toPrimitives, dealerSeat }

def takeHandBoundary : HandRuntimeM L.ziffle (Option HandBoundary) := do
  let runtime ← getActive
  match runtime.active with
  | none => return none
  | some running =>
    if running.boundaryExported then return none
    else match running.hand.finalizedReceipt with
      | none => return none
      | some receipt =>
        let boundary ← expect (boundaryOf L running receipt)
        update fun runtime => { runtime with
          active := some { running with boundaryExported := true } }
        return some boundary

/-- The receipt of the active hand that has not been taken yet. -/
def unexported {Z : Ziffle} (runtime : HandRuntime Z) : Option CoSignedReceipt :=
  runtime.active.bind fun running =>
    if running.finalizedReceiptExported then none else running.hand.finalizedReceipt

/-- The receipts go to the caller. -/
def handOut {Z : Ziffle} (receipts : List CoSignedReceipt) :
    HandRuntimeM Z (List CoSignedReceipt) := do
  forEach (fun receipt => record (.exported receipt)) receipts
  return receipts

def takeNewlyFinalizedReceipts {Z : Ziffle} : HandRuntimeM Z (List CoSignedReceipt) := do
  let runtime ← getActive
  update fun runtime => { runtime with pendingExports := [] }
  match runtime.active with
  | none => handOut runtime.pendingExports
  | some running =>
    if running.finalizedReceiptExported then handOut runtime.pendingExports
    else match running.hand.finalizedReceipt with
      | none => handOut runtime.pendingExports
      | some receipt =>
        update fun runtime => { runtime with
          active := some { running with finalizedReceiptExported := true } }
        handOut (runtime.pendingExports ++ [receipt])

end HandRuntime

/-! ## Runs -/

/-- One call of the runtime. -/
inductive RuntimeCall (Z : Ziffle) where
  | start (table : ReadyTable) (seed : Z.Seed) (execution : HandExecutionContext Z)
  | command (call : HandCommand Z)
  | deliver (execution : HandExecutionContext Z) (delivery : InboundHandDelivery)
  | leave
  | abortForSignedLeave (tableId : TableId) (handNumber : UInt64)
  | takeHandBoundary
  | takeNewlyFinalizedReceipts

namespace RuntimeCall

variable (L : HandPrimitives)

def run : RuntimeCall L.ziffle → HandRuntimeM L.ziffle Unit
  | .start table seed execution => HandRuntime.start L table seed execution
  | .command call => HandRuntime.command L call
  | .deliver execution delivery => HandRuntime.deliver L execution delivery
  | .leave => HandRuntime.leave
  | .abortForSignedLeave tableId handNumber => HandRuntime.abortForSignedLeave tableId handNumber
  | .takeHandBoundary => do let _ ← HandRuntime.takeHandBoundary L
  | .takeNewlyFinalizedReceipts => do let _ ← HandRuntime.takeNewlyFinalizedReceipts

/-- The runtime after some calls, whether they succeed or fail, with all that has been
done. -/
def afterAll (calls : List (RuntimeCall L.ziffle)) :
    Traced (HandRuntime L.ziffle) (RuntimeEffect L.ziffle) :=
  calls.foldl (fun s call => endState ((call.run L).run s)) { active := .idle, trace := [] }

@[simp] theorem afterAll_concat (calls : List (RuntimeCall L.ziffle))
    (call : RuntimeCall L.ziffle) :
    afterAll L (calls ++ [call]) = endState ((call.run L).run (afterAll L calls)) := by
  simp [afterAll]

end RuntimeCall

end TokenHoldem
