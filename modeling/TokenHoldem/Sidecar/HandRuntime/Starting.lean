import TokenHoldem.Library.BoundedBuffer
import TokenHoldem.Sidecar.HandRuntime.Exports

/-!
# Starting a hand

`HandRuntime::start` initializes the next hand, puts the last one away and passes on the
messages that have come too early. The last hand is taken out of the runtime before its
receipt is looked for, so a start that fails for want of a receipt has already dropped the
hand. The early messages share one buffer of 128, whoever sends them.

- `retire_run`, `start_run` — what a start does, exit by exit;
- `initializeHand_isOk` — a table for at least two can be initialized;
- `start_atomic_iff` — a start that fails leaves the runtime as it was exactly when no
  unfinished hand is in it;
- `besides_delivered` — messages of other peers, tables or hands do nothing to a hand;
- `early_messages_iff` — the early messages for a hand are kept and passed on as if there
  were no others exactly when the others do not take their room.
-/

namespace TokenHoldem

open Library TracedM

/-- The moves of a call are moves of one hand. -/
theorem HandMoves.sameHand {L : HandPrimitives} {input : HandInput} {a b : ActiveHand L.ziffle}
    {trace : List (HandEffect L.ziffle)} (moves : HandMoves L input a trace b) : SameHand a b := by
  induction moves with
  | refl => exact ⟨rfl, rfl, rfl, rfl⟩
  | snoc _ move ih =>
    have hmove := move.sameHand
    exact ⟨hmove.table.trans ih.table, hmove.handNumber.trans ih.handNumber,
      hmove.dealerIndex.trans ih.dealerIndex, hmove.engine.trans ih.engine⟩

namespace HandRuntime

variable {L : HandPrimitives} {s t : Traced (HandRuntime L.ziffle) (RuntimeEffect L.ziffle)}
  {table : ReadyTable} {seed : L.ziffle.Seed} {execution : HandExecutionContext L.ziffle}
  {begun : TracedHand L.ziffle}

/-! ## The steps of a start -/

/-- No hand without a receipt is in the runtime. -/
def Finalized {Z : Ziffle} (runtime : HandRuntime Z) : Prop :=
  ∀ running, runtime.active = some running → running.hand.finalizedReceipt.isSome

/-- The runtime once the last hand has been put away. -/
def retired {Z : Ziffle} (runtime : HandRuntime Z) : HandRuntime Z :=
  { runtime with
    active := none
    pendingExports := runtime.pendingExports ++ runtime.unexported.toList }

/-- A hand with a receipt is put away. -/
theorem retire_run (finalized : s.active.Finalized) :
    (retire : HandRuntimeM L.ziffle Unit).run s = .ok () { s with active := s.active.retired } := by
  obtain ⟨⟨active, pendingExports, earlyMessages⟩, trace⟩ := s
  cases active with
  | none => simp [retire, retired, unexported, getActive]
  | some completed =>
    obtain ⟨receipt, hreceipt⟩ := Option.isSome_iff_exists.mp (finalized completed rfl)
    cases hexported : completed.finalizedReceiptExported with
    | true =>
      simp [retire, retired, unexported, getActive, update, expect, okOr, hreceipt, hexported]
    | false =>
      simp [retire, retired, unexported, getActive, update, expect, okOr, hreceipt, hexported]

/-- A hand without one is dropped. -/
theorem retire_run_error {running : RunningHand L.ziffle} (hactive : s.active.active = some running)
    (unfinished : running.hand.finalizedReceipt = none) :
    (retire : HandRuntimeM L.ziffle Unit).run s = .error (.message "启动下一手时上一手尚未形成联合签名凭证")
        { s with active := { s.active with active := none } } := by
  obtain ⟨⟨active, pendingExports, earlyMessages⟩, trace⟩ := s
  cases hactive
  simp [retire, getActive, update, expect, okOr, unfinished]
  rfl

/-- The runtime after some direct messages, whatever comes of them. -/
def delivered (L : HandPrimitives) (execution : HandExecutionContext L.ziffle)
    (s : Traced (HandRuntime L.ziffle) (RuntimeEffect L.ziffle))
    (deliveries : List InboundHandDelivery) :
    Traced (HandRuntime L.ziffle) (RuntimeEffect L.ziffle) :=
  deliveries.foldl (fun s delivery => endState ((deliver L execution delivery).run s)) s

theorem run_replay (deliveries : List InboundHandDelivery) :
    (forEach (fun delivery => attempt (deliver L execution delivery)) deliveries).run s =
      .ok () (delivered L execution s deliveries) := by
  induction deliveries generalizing s with
  | nil => rfl
  | cons delivery deliveries ih =>
    rw [forEach, run_bind_ok (run_attempt _), ih]
    rfl

/-- The runtime with the new hand, before it gets the early messages. -/
def takenUp (s : Traced (HandRuntime L.ziffle) (RuntimeEffect L.ziffle))
    (begun : TracedHand L.ziffle) :
    Traced (HandRuntime L.ziffle) (RuntimeEffect L.ziffle) :=
  let s := withHand { s with active := s.active.retired } begun
  { s with active := { s.active with earlyMessages := [] } }

theorem start_run_unaligned (h : table.peerIds.length ≠ table.peerAddresses.length) :
    (start L table seed execution).run s = .error (.message "逐手玩家端点数量与 PeerId 数量不一致") s := by
  simp [start, check, h]

section

variable (h : table.peerIds.length = table.peerAddresses.length)

include h

theorem start_run_uninitialized {e : HandError}
    (hbegun : initializeHand L table seed execution = .error e) :
    (start L table seed execution).run s = .error e s := by
  simp [start, check, h, hbegun, expect]
  rfl

theorem start_run_unfinished (hbegun : initializeHand L table seed execution = .ok begun)
    {running : RunningHand L.ziffle} (hactive : s.active.active = some running)
    (unfinished : running.hand.finalizedReceipt = none) :
    (start L table seed execution).run s = .error (.message "启动下一手时上一手尚未形成联合签名凭证")
        { s with active := { s.active with active := none } } := by
  simp only [start, check, if_pos h, hbegun, expect, pure_bind]
  exact run_bind_error (retire_run_error hactive unfinished)

theorem start_run (hbegun : initializeHand L table seed execution = .ok begun)
    (finalized : s.active.Finalized) : (start L table seed execution).run s =
      .ok () (delivered L execution (takenUp s begun) s.active.earlyMessages) := by
  simp only [start, check, if_pos h, hbegun, expect, pure_bind]
  rw [run_bind_ok (retire_run finalized)]
  exact run_replay _

end

/-! ## Starting over an unfinished hand -/

theorem tryU8_of_lt {n : Nat} (h : n < 256) : tryU8 n = some (UInt8.ofNat n) :=
  tryU8_eq_some.mpr (UInt8.toNat_ofNat_of_lt' h)

/-- A hand with nothing but the own key waits for the keys of the others. -/
theorem drive_freshHand {engine : MentalPokerEngine} {localKey : PlayerKeyMaterial L.ziffle}
    {localSeat : UInt8} {trace : List (HandEffect L.ziffle)} (several : 2 ≤ table.players.length) :
    (drive L execution).run { active := freshHand L table engine localKey localSeat, trace } =
      .ok () { active := freshHand L table engine localKey localSeat, trace } := by
  set fresh : TracedHand L.ziffle :=
    { active := freshHand L table engine localKey localSeat, trace } with hfresh
  have hcount : fresh.active.playerCount = table.players.length := rfl
  have hsize : fresh.active.announcements.size = 1 :=
    Std.TreeMap.size_insert.trans (if_neg Std.TreeMap.not_mem_emptyc)
  have hkeys : (aggregateKeys L).run fresh = .ok () fresh := by
    rw [aggregateKeys, run_getActive_bind, if_neg fun h => by omega]
    rfl
  have hshuffles : (runShuffles L execution.draws).run fresh = .ok () fresh := rfl
  have hholes : (distributeHoleCards L execution.draws).run fresh = .ok () fresh := by
    rw [distributeHoleCards, run_getActive_bind, if_neg]
    · rfl
    · rintro ⟨hstage, -⟩
      have hzero : fresh.active.shuffleStage.toNat = 0 := rfl
      omega
  have hlocal : (dealLocalCards L).run fresh = .ok () fresh := by
    rw [dealLocalCards, run_getActive_bind, if_neg fun h => Bool.noConfusion h.2]
    rfl
  have hreveal : (tryCompletePublicReveal L execution).run fresh = .ok () fresh := rfl
  have hturn : (ensureTurnStarted L execution.nowUnixMs).run fresh = .ok () fresh := by
    rw [ensureTurnStarted, run_getActive_bind, if_neg]
    · rfl
    · rintro ⟨-, -, -, -, -, -, hhand⟩
      exact Bool.noConfusion hhand
  rw [drive, run_getActive_bind, if_neg fun h => Bool.noConfusion h, run_bind_ok hkeys,
    run_bind_ok hshuffles, run_bind_ok hholes, run_bind_ok hlocal, run_bind_ok hreveal, hturn]

/-- A table for at least two can be initialized. -/
theorem initializeHand_isOk (several : 2 ≤ table.players.length) (few : table.players.length < 256)
    (numbered : table.handNumber ≠ 0) (dealer : table.dealerIndex < table.players.length)
    (seated : table.localSeat < table.players.length) :
    ∃ begun, initializeHand L table seed execution = .ok begun := by
  have hcontext : 16 ≤ (transcriptContext table).length := by
    unfold transcriptContext
    simp only [List.length_append]
    have hlabel : (textBytes "token-holdem/table/").length = 19 := by decide
    omega
  have hinitial : initialHand L table seed = .ok (freshHand L table ⟨transcriptContext table⟩
      (MentalPokerEngine.generateKeys L.ziffle ⟨transcriptContext table⟩ seed)
      (UInt8.ofNat (table.localSeat + 1))) := by
    unfold initialHand
    rw [ensure_bind_eq_ok]
    refine ⟨numbered, ensure_bind_eq_ok.mpr ⟨dealer, bind_eq_ok.mpr
      ⟨⟨transcriptContext table⟩, ?_, ?_⟩⟩⟩
    · exact mapError_eq_ok_iff.mpr (ensure_bind_eq_ok.mpr ⟨hcontext, rfl⟩)
    · exact okOr_bind_eq_ok.mpr ⟨_, tryU8_of_lt (by omega), rfl⟩
  set fresh := freshHand L table ⟨transcriptContext table⟩
    (MentalPokerEngine.generateKeys L.ziffle ⟨transcriptContext table⟩ seed)
    (UInt8.ofNat (table.localSeat + 1)) with hfresh
  have hseat : fresh.localSeatU8 = .ok (UInt8.ofNat (table.localSeat + 1)) :=
    okOr_eq_ok.mpr (tryU8_of_lt (show table.localSeat + 1 < 256 by omega))
  have hdealer : tryU8 (fresh.dealerIndex + 1) = some (UInt8.ofNat (table.dealerIndex + 1)) :=
    tryU8_of_lt (show table.dealerIndex + 1 < 256 by omega)
  have hprogress : fresh.progress fresh.announcements.size = .ok () := by
    have hsize : fresh.announcements.size = 1 :=
      Std.TreeMap.size_insert.trans (if_neg Std.TreeMap.not_mem_emptyc)
    have hcount : tryU8 fresh.playerCount = some (UInt8.ofNat table.players.length) :=
      tryU8_of_lt few
    rw [ActiveHand.progress, hsize, tryU8_of_lt (by omega), hcount]
    rfl
  have hbegin : ∃ begun, (beginHand L execution).run { active := fresh, trace := [] } =
      .ok () begun := by
    rw [beginHand, run_getActive_bind]
    simp only [hseat, hdealer, hprogress, expect, okOr, pure_bind]
    exact ⟨_, drive_freshHand several⟩
  obtain ⟨begun, hbegin⟩ := hbegin
  refine ⟨begun, ?_⟩
  rw [initializeHand, bind_eq_ok]
  exact ⟨fresh, hinitial, by rw [hbegin]; rfl⟩

/-- `HandRuntime::start` with the subscription of the table's topic, which comes after the
first check. -/
def startSubscribed (L : HandPrimitives) (subscribed : Except HandError Unit) (table : ReadyTable)
    (seed : L.ziffle.Seed) (execution : HandExecutionContext L.ziffle) :
    HandRuntimeM L.ziffle Unit := do
  check (table.peerIds.length = table.peerAddresses.length)
    (.message "逐手玩家端点数量与 PeerId 数量不一致")
  expect subscribed
  start L table seed execution

/-- Every start that fails leaves the runtime as it was, with its hand, its receipts and its
early messages, exactly when the runtime has no hand without a receipt. -/
theorem start_atomic_iff (L : HandPrimitives)
    (s : Traced (HandRuntime L.ziffle) (RuntimeEffect L.ziffle)) (seed : L.ziffle.Seed)
    (execution : HandExecutionContext L.ziffle) :
    (∀ subscribed table e t,
      (startSubscribed L subscribed table seed execution).run s = .error e t →
        t.active = s.active) ↔
      s.active.Finalized := by
  constructor
  · intro atomic running hactive
    by_contra hnone
    have unfinished : running.hand.finalizedReceipt = none := by simpa using hnone
    obtain ⟨begun, hbegun⟩ := @initializeHand_isOk L (pairTable oneTwoLevel [] 0) seed
      execution (by decide) (by decide) (by decide) (by decide) (by decide)
    have hrun := start_run_unfinished rfl hbegun hactive unfinished
    have hkept := congrArg HandRuntime.active
      (atomic (.ok ()) (pairTable oneTwoLevel [] 0) _ _ hrun)
    rw [hactive] at hkept
    exact nomatch hkept
  · intro finalized subscribed table e t hrun
    by_cases haligned : table.peerIds.length = table.peerAddresses.length
    · rw [startSubscribed, check, if_pos haligned, pure_bind] at hrun
      cases subscribed with
      | error e' =>
        cases hrun
        rfl
      | ok u =>
        have hstart : (start L table seed execution).run s = .error e t := hrun
        cases hbegun : initializeHand L table seed execution with
        | error e' =>
          rw [start_run_uninitialized haligned hbegun] at hstart
          cases hstart
          rfl
        | ok begun =>
          rw [start_run haligned hbegun finalized] at hstart
          cases hstart
    · rw [startSubscribed, check, if_neg haligned] at hrun
      cases hrun
      rfl

/-- The first table, as seat 1 sees it. -/
def firstTable : ReadyTable := pairTable oneTwoLevel [chips 200, chips 200] 0

/-- The table of the hand after the first. -/
def nextTable : ReadyTable := { firstTable with handNumber := 2 }

/-- A second start while the first hand is being dealt fails, and the hand is gone. -/
theorem failed_start_drops_hand :
    let calls := [RuntimeCall.start firstTable () (seatExecution 0 0)]
    (RuntimeCall.afterAll .plain calls).active.active.isSome = true ∧
      ∃ t, (start .plain nextTable () (seatExecution 0 1)).run (RuntimeCall.afterAll .plain calls) =
          .error (.message "启动下一手时上一手尚未形成联合签名凭证") t ∧
        t.active.active.isNone = true := by
  decide +kernel

/-! ## Early messages -/

/-- The message comes from a peer of the table and is for its hand. -/
def Concerns (table : ReadyTable) (delivery : InboundHandDelivery) : Prop :=
  delivery.source ∈ table.peerIds ∧ delivery.message.scope.tableId = table.tableId ∧
    delivery.message.scope.handNumber = table.handNumber

instance instDecidableConcerns (table : ReadyTable) : DecidablePred (Concerns table) := by
  intro delivery
  unfold Concerns
  infer_instance

/-- All of a runtime but its early messages. -/
def besides {Z : Ziffle} (s : Traced (HandRuntime Z) (RuntimeEffect Z)) :
    Option (RunningHand Z) × List CoSignedReceipt × List (RuntimeEffect Z) :=
  (s.active.active, s.active.pendingExports, s.trace)

variable {delivery : InboundHandDelivery} {deliveries : List InboundHandDelivery}
  {running : RunningHand L.ziffle}

/-- `buffer_early_message` pushes the message, or drops it. -/
theorem endState_bufferEarlyMessage :
    endState ((bufferEarlyMessage delivery : HandRuntimeM L.ziffle Unit).run s) =
      { s with active := { s.active with
          earlyMessages := push maxEarlyHandMessages s.active.earlyMessages delivery } } := by
  rw [bufferEarlyMessage, run_getActive_bind, push]
  split
  · rfl
  · unfold check
    split
    · rfl
    · rfl

theorem deliver_of_buffered (h : s.active.shouldBufferNextHand delivery.message.scope = true) :
    (deliver L execution delivery).run s = (bufferEarlyMessage delivery).run s := by
  rw [deliver, run_getActive_bind, if_pos h]

theorem deliver_of_current (h : s.active.shouldBufferNextHand delivery.message.scope = false) :
    (deliver L execution delivery).run s =
      (onActive ((delivery.command execution).run L)).run s := by
  rw [deliver, run_getActive_bind, if_neg (by simp [h]), command, run_getActive_bind]
  obtain ⟨source, message | message⟩ := delivery
  · rfl
  · rfl

/-- Without a hand every message goes to the buffer. -/
theorem delivered_idle (idle : s.active.active = none) :
    delivered L execution s deliveries =
      { s with active := { s.active with
          earlyMessages :=
            deliveries.foldl (push maxEarlyHandMessages) s.active.earlyMessages } } := by
  induction deliveries generalizing s with
  | nil => rfl
  | cons delivery deliveries ih =>
    have hbuffered : s.active.shouldBufferNextHand delivery.message.scope = true := by
      rw [shouldBufferNextHand, idle]
    rw [delivered, List.foldl_cons, deliver_of_buffered hbuffered, endState_bufferEarlyMessage]
    exact ih idle

/-- The runtime after a call of its hand. -/
theorem endState_onActive (hactive : s.active.active = some running)
    (call : ActiveHandM L.ziffle Unit) :
    endState ((onActive call).run s) =
      let after := endState (call.run { active := running.hand, trace := [] })
      { active := { s.active with active := some { running with hand := after.active } }
        trace := s.trace ++ after.trace.map .hand } := by
  have hrun : (onActive call).run s = onActive call s := rfl
  rw [hrun, onActive, hactive]
  dsimp only
  cases call.run { active := running.hand, trace := [] } with
  | ok _ after => rfl
  | error e after => rfl

/-- What a message does to a hand does not depend on the buffer. -/
theorem besides_deliver (h : besides s = besides t) :
    besides (endState ((deliver L execution delivery).run s)) =
      besides (endState ((deliver L execution delivery).run t)) := by
  obtain ⟨⟨active, pendingExports, earlyMessages⟩, trace⟩ := s
  obtain ⟨⟨active', pendingExports', earlyMessages'⟩, trace'⟩ := t
  obtain ⟨rfl, rfl, rfl⟩ :
      active = active' ∧ pendingExports = pendingExports' ∧ trace = trace' := by
    simpa [besides] using h
  cases hbuffered : shouldBufferNextHand ⟨active, pendingExports, earlyMessages⟩
      delivery.message.scope with
  | true =>
    have hbuffered' : shouldBufferNextHand ⟨active, pendingExports, earlyMessages'⟩
      delivery.message.scope = true := hbuffered
    rw [deliver_of_buffered hbuffered, deliver_of_buffered hbuffered', endState_bufferEarlyMessage,
      endState_bufferEarlyMessage]
    rfl
  | false =>
    have hbuffered' : shouldBufferNextHand ⟨active, pendingExports, earlyMessages'⟩
      delivery.message.scope = false := hbuffered
    rw [deliver_of_current hbuffered, deliver_of_current hbuffered']
    cases active with
    | none => rfl
    | some running =>
      rw [endState_onActive rfl, endState_onActive rfl]
      rfl

/-- The runtime is in the middle of the table's hand. -/
def Plays (table : ReadyTable) (s : Traced (HandRuntime L.ziffle) (RuntimeEffect L.ziffle)) :
    Prop :=
  ∃ running, s.active.active = some running ∧ running.hand.table = table ∧
    running.hand.handNumber = table.handNumber

/-- Messages do not end a hand. -/
theorem Plays.deliver (h : Plays table s) :
    Plays table (endState ((deliver L execution delivery).run s)) := by
  obtain ⟨running, hactive, htable, hnumber⟩ := h
  cases hbuffered : s.active.shouldBufferNextHand delivery.message.scope with
  | true =>
    rw [deliver_of_buffered hbuffered, endState_bufferEarlyMessage]
    exact ⟨running, hactive, htable, hnumber⟩
  | false =>
    have hsame := ((delivery.command execution).came running.hand).moves.sameHand
    rw [deliver_of_current hbuffered, endState_onActive hactive]
    exact ⟨_, rfl, hsame.table.trans htable, hsame.handNumber.trans hnumber⟩

/-- A message of another peer, table or hand is refused before it changes anything. -/
theorem after_foreign (htable : running.hand.table = table)
    (hnumber : running.hand.handNumber = table.handNumber) (foreign : ¬ Concerns table delivery) :
    (delivery.command execution).after L running.hand =
      { active := running.hand, trace := [] } := by
  set unchanged : TracedHand L.ziffle :=
    { active := running.hand, trace := [] }
  have hscope : ∀ {scope : HandScope} {u : Unit}, running.hand.verifyScope scope = .ok u →
      scope.tableId = table.tableId ∧ scope.handNumber = table.handNumber := by
    intro scope u h
    have hmatch := (ensure_bind_eq_ok.mp h).1
    rwa [htable, hnumber] at hmatch
  obtain ⟨source, message | message⟩ := delivery
  · refine show Ends (· = unchanged) unchanged
      (handlePublicMessage L execution (some source) message)
      from ends_getActive
        (ends_expect_bind rfl fun _ hfits => ends_expect_bind rfl fun _ hsource => ?_)
    obtain ⟨_, ⟨⟩, hsource⟩ := okOr_bind_eq_ok.mp hsource
    exact absurd ⟨htable ▸ (ensure_bind_eq_ok.mp hsource).1, hscope hfits⟩ foreign
  · have hrefused : Returns (fun _ _ => False) (· = unchanged) unchanged
        (acceptHoleShare L source message) := by
      refine returns_getActive (returns_expect_bind (fun _ _ => rfl) fun _ hfits => ?_)
      refine returns_expect_bind (fun _ _ => rfl) fun _ hsource => ?_
      obtain ⟨index, -, hsource⟩ := bind_eq_ok.mp hsource
      obtain ⟨expected, hpeer, hsource⟩ := okOr_bind_eq_ok.mp hsource
      obtain rfl := ensure_eq_ok.mp hsource
      exact absurd ⟨htable ▸ List.mem_of_getElem? hpeer, hscope hfits⟩ foreign
    exact show Ends (· = unchanged) unchanged (handlePrivate L execution source message) from
      hrefused.ends_bind fun _ _ h => h.elim

theorem besides_deliver_foreign (h : Plays table s) (foreign : ¬ Concerns table delivery) :
    besides (endState ((TokenHoldem.HandRuntime.deliver L execution delivery).run s)) =
      besides s := by
  obtain ⟨running, hactive, htable, hnumber⟩ := h
  cases hbuffered : s.active.shouldBufferNextHand delivery.message.scope with
  | true =>
    rw [deliver_of_buffered hbuffered, endState_bufferEarlyMessage]
    rfl
  | false =>
    rw [deliver_of_current hbuffered, endState_onActive hactive]
    have hafter : endState (((delivery.command execution).run L).run
        { active := running.hand, trace := [] }) = { active := running.hand, trace := [] } :=
      after_foreign htable hnumber foreign
    rw [hafter]
    simp [besides, hactive]

/-- The messages of other peers, tables or hands do nothing to a hand. -/
theorem besides_delivered (h : Plays table s) (hsame : besides s = besides t) :
    besides (delivered L execution s deliveries) =
      besides (delivered L execution t (deliveries.filter (Concerns table))) := by
  induction deliveries generalizing s t with
  | nil => exact hsame
  | cons delivery deliveries ih =>
    rw [delivered, List.foldl_cons]
    by_cases hconcerns : Concerns table delivery
    · rw [List.filter_cons_of_pos (by simpa using hconcerns)]
      exact ih h.deliver (besides_deliver hsame)
    · rw [List.filter_cons_of_neg (by simpa using hconcerns)]
      exact ih h.deliver ((besides_deliver_foreign h hconcerns).trans hsame)

/-- What a call has come to, and all it leaves but the early messages. -/
def outcome {Z : Ziffle} (result : EStateM.Result HandError
      (Traced (HandRuntime Z) (RuntimeEffect Z)) Unit) :
    Option HandError × Option (RunningHand Z) × List CoSignedReceipt × List (RuntimeEffect Z) :=
  (match result with
    | .ok _ _ => none
    | .error e _ => some e,
    besides (endState result))

theorem plays_takenUp (hbegun : initializeHand L table seed execution = .ok begun) :
    Plays table (takenUp s begun) := by
  obtain ⟨active, hinitial, h⟩ := bind_eq_ok.mp hbegun
  have hcame : Ends (Came L none active) { active, trace := [] } (beginHand L execution) :=
    came_beginHand .refl
  obtain ⟨engine, localSeat, -, rfl⟩ := initialHand_eq_ok hinitial
  split at h
  next hbegin =>
    cases h
    have hsame := (hcame.of_ok hbegin).moves.sameHand
    exact ⟨_, rfl, hsame.table, hsame.handNumber⟩
  · exact nomatch h

theorem finalized_of_idle {Z : Ziffle} {runtime : HandRuntime Z} (idle : runtime.active = none) :
    runtime.Finalized := by
  intro running hactive
  exact nomatch idle.symm.trans hactive

/-- A start passes on the early messages for its hand, and the others do nothing to it. -/
theorem outcome_start (idle : s.active.active = none) (hsame : besides s = besides t)
    (hearly : s.active.earlyMessages.filter (Concerns table) =
      t.active.earlyMessages.filter (Concerns table)) :
    outcome ((start L table seed execution).run s) =
      outcome ((start L table seed execution).run t) := by
  have idle' : t.active.active = none := (congrArg Prod.fst hsame).symm.trans idle
  by_cases haligned : table.peerIds.length = table.peerAddresses.length
  · cases hbegun : initializeHand L table seed execution with
    | error e =>
      rw [start_run_uninitialized haligned hbegun, start_run_uninitialized haligned hbegun, outcome,
        outcome]
      exact congrArg (Prod.mk (some e)) hsame
    | ok begun =>
      rw [start_run haligned hbegun (finalized_of_idle idle),
        start_run haligned hbegun (finalized_of_idle idle')]
      refine congrArg (Prod.mk none) ?_
      have htaken : besides (takenUp t begun) = besides (takenUp s begun) := by
        obtain ⟨⟨active, pendingExports, earlyMessages⟩, trace⟩ := s
        obtain ⟨⟨active', pendingExports', earlyMessages'⟩, trace'⟩ := t
        obtain ⟨rfl, rfl, rfl⟩ :
            active = active' ∧ pendingExports = pendingExports' ∧ trace = trace' := by
          simpa [besides] using hsame
        rfl
      calc besides (delivered L execution (takenUp s begun) s.active.earlyMessages)
          = besides (delivered L execution (takenUp s begun)
              (s.active.earlyMessages.filter (Concerns table))) :=
            besides_delivered (plays_takenUp hbegun) rfl
        _ = besides (delivered L execution (takenUp s begun)
              (t.active.earlyMessages.filter (Concerns table))) := by rw [hearly]
        _ = besides (delivered L execution (takenUp t begun) t.active.earlyMessages) :=
            (besides_delivered (plays_takenUp hbegun) htaken).symm
  · rw [start_run_unaligned haligned, start_run_unaligned haligned, outcome, outcome]
    exact congrArg (Prod.mk (some _)) hsame

/-- The messages for the table's hand are kept, and passed on by the start, in the same way
as if there were no others. -/
def Undisturbed (L : HandPrimitives) (s : Traced (HandRuntime L.ziffle) (RuntimeEffect L.ziffle))
    (execution : HandExecutionContext L.ziffle) (table : ReadyTable)
    (deliveries : List InboundHandDelivery) : Prop :=
  (delivered L execution s deliveries).active.earlyMessages.filter (Concerns table) =
      (delivered L execution s (deliveries.filter (Concerns table))).active.earlyMessages.filter
        (Concerns table) ∧
    ∀ seed execution', outcome ((start L table seed execution').run
        (delivered L execution s deliveries)) =
      outcome ((start L table seed execution').run
        (delivered L execution s (deliveries.filter (Concerns table))))

/-- The others do not take the room of the messages for the table's hand: of the new
messages, none that comes once the buffer is full is for the hand, or all that fill the
buffer are. -/
def HasRoom {Z : Ziffle} (runtime : HandRuntime Z) (table : ReadyTable)
    (deliveries : List InboundHandDelivery) : Prop :=
  let room := maxEarlyHandMessages - runtime.earlyMessages.length
  let arriving := news runtime.earlyMessages deliveries
  (∀ delivery ∈ arriving.drop room, ¬ Concerns table delivery) ∨
    ∀ delivery ∈ arriving.take room, Concerns table delivery
deriving Decidable

/-- Without a hand, the early messages for the next one are treated as if there were no
others exactly when the others do not take their room. -/
theorem early_messages_iff (idle : s.active.active = none)
    (execution : HandExecutionContext L.ziffle) (table : ReadyTable)
    (deliveries : List InboundHandDelivery) :
    Undisturbed L s execution table deliveries ↔ s.active.HasRoom table deliveries := by
  have hkept : ((delivered L execution s deliveries).active.earlyMessages.filter (Concerns table) =
        (delivered L execution s (deliveries.filter (Concerns table))).active.earlyMessages.filter
          (Concerns table)) ↔ s.active.HasRoom table deliveries := by
    rw [delivered_idle idle, delivered_idle idle]
    exact filter_foldl_push_iff _ _ _
  refine ⟨fun h => hkept.mp h.1, fun hroom => ⟨hkept.mpr hroom, fun seed execution' => ?_⟩⟩
  refine outcome_start ?_ ?_ (hkept.mpr hroom)
  · rw [delivered_idle idle]
    exact idle
  · rw [delivered_idle idle, delivered_idle idle]
    rfl

/-- A runtime that has just been built. -/
def rested : Traced (HandRuntime HandPrimitives.plain.ziffle)
    (RuntimeEffect HandPrimitives.plain.ziffle) where
  active := .idle
  trace := []

/-- The key of seat 2. -/
def otherKey : InboundHandDelivery where
  source := ⟨2⟩
  message := .public (.keyAnnouncement ⟨firstTable.tableId, 1, firstTable.rosterHash⟩ 2 ⟨[], []⟩)

/-- Messages of a stranger for a table that does not exist. -/
def strangers (count : Nat) : List InboundHandDelivery :=
  (List.range count).map fun i =>
    { source := ⟨9⟩
      message := .public (.dealReady ⟨Identifier.ofNat 78, 1, FixedBytes.ofNat 0⟩ (UInt8.ofNat i)) }

theorem hasRoom_few : rested.active.HasRoom firstTable (strangers 3 ++ [otherKey]) := by
  decide +kernel

/-- A few messages of a stranger do not disturb the key of seat 2. -/
theorem early_messages_few :
    Undisturbed .plain rested (seatExecution 0 0) firstTable (strangers 3 ++ [otherKey]) :=
  (@early_messages_iff .plain rested rfl (seatExecution 0 0) firstTable
    (strangers 3 ++ [otherKey])).mpr hasRoom_few

/-- The messages for the first table that are kept, and how many keys its hand starts with. -/
def keptAndKeys (deliveries : List InboundHandDelivery) : List InboundHandDelivery × Option Nat :=
  let early := delivered .plain (seatExecution 0 0) rested deliveries
  let started := endState ((start .plain firstTable () (seatExecution 0 1)).run early)
  (early.active.earlyMessages.filter (Concerns firstTable),
    started.active.active.map fun running => running.hand.announcements.size)

/-- After 128 messages of a stranger the key of seat 2, its only message, is not kept, and
the hand starts without it. -/
theorem stranger_crowds_out_key :
    (strangers 128 ++ [otherKey]).filter (Concerns firstTable) = [otherKey] ∧
      keptAndKeys (strangers 128 ++ [otherKey]) = ([], some 1) ∧
      keptAndKeys [otherKey] = ([otherKey], some 2) := by
  decide +kernel

end HandRuntime

end TokenHoldem
