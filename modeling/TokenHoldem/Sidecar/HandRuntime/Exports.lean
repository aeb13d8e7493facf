import TokenHoldem.Sidecar.HandRuntime.Calls
import TokenHoldem.Sidecar.HandRuntime.Hands
import TokenHoldem.Sidecar.HandRuntime.Play

/-!
# Every receipt is taken once

A hand that has ended leaves a co-signed receipt, which `take_newly_finalized_receipts`
hands out. The receipt may be in the active hand or, when the next hand has started
before anybody asked, in a list.

- `Ledger`: a hand finalizes one receipt at most, and keeps it.
- `receipts_exported_once`: what has been taken is part of what has been finalized, in
  the same order, and after the next call it is all of it, exactly when no hand has been
  left or aborted with a receipt that had not been taken.
-/

namespace TokenHoldem

open Library TracedM List RuntimeCall Option

variable {L : HandPrimitives} {input : HandInput}
  {history trace effects : List (HandEffect L.ziffle)}
  {a b : ActiveHand L.ziffle}

/-! ## One hand -/

/-- The receipt that an effect is about, if it forms one. -/
def HandEffect.finalized? {Z : Ziffle} : HandEffect Z → Option CoSignedReceipt
  | .finalized receipt => some receipt
  | _ => none

/-- The receipts that a hand has finalized. -/
def finalizedOf {Z : Ziffle} (trace : List (HandEffect Z)) : List CoSignedReceipt :=
  trace.filterMap HandEffect.finalized?

@[simp] theorem finalizedOf_append {Z : Ziffle} (trace effects : List (HandEffect Z)) :
    finalizedOf (trace ++ effects) = finalizedOf trace ++ finalizedOf effects :=
  filterMap_append

theorem finalizedOf_concat {Z : Ziffle} {trace : List (HandEffect Z)} {effect : HandEffect Z}
    (h : effect.finalized? = none) : finalizedOf (trace ++ [effect]) = finalizedOf trace := by
  rw [finalizedOf_append, finalizedOf, finalizedOf, filterMap_cons_none h,
    filterMap_nil, append_nil]

/-- Neither a receipt nor a showdown. -/
def HandEffect.IsQuiet {Z : Ziffle} : HandEffect Z → Prop
  | .finalized _ => False
  | .showdown _ => False
  | _ => True

theorem finalizedOf_eq_nil {Z : Ziffle} {effects : List (HandEffect Z)}
    (quiet : ∀ effect ∈ effects, effect.IsQuiet) : finalizedOf effects = [] := by
  rw [finalizedOf, filterMap_eq_nil_iff]
  intro effect heffect
  have hquiet := quiet effect heffect
  cases effect with
  | finalized receipt => exact hquiet.elim
  | _ => rfl

/-- The receipt of a hand is the one it has finalized. It is settled before signatures
are collected, and only once. -/
structure Ledger (history : List (HandEffect L.ziffle)) (a : ActiveHand L.ziffle) : Prop where
  finalized : finalizedOf history = a.finalizedReceipt.toList
  closed : a.finalizedReceipt.isSome = true →
    ∃ consensus, a.receiptConsensus = some consensus ∧ consensus.finalized = true
  collecting : a.receiptConsensus.isSome = true → a.settled = true
  revealing : a.pendingReveal.isSome = true → a.settled = false
  showdowns : ∀ before, .showdown before ∈ history → before.settled = false

/-- A move that has nothing to do with settlements. -/
theorem Ledger.frame (h : Ledger history a) (quiet : ∀ effect ∈ effects, effect.IsQuiet)
    (receipt : b.finalizedReceipt = a.finalizedReceipt)
    (consensus : b.receiptConsensus = a.receiptConsensus) (settled : b.settled = a.settled)
    (reveal : b.pendingReveal.isSome = true → a.settled = false) :
    Ledger (history ++ effects) b where
  finalized := by
    rw [finalizedOf_append, finalizedOf_eq_nil quiet, append_nil, receipt]
    exact h.finalized
  closed := by
    rw [receipt, consensus]
    exact h.closed
  collecting := by
    rw [consensus, settled]
    exact h.collecting
  revealing := by
    rw [settled]
    exact reveal
  showdowns := by
    intro before hbefore
    rcases mem_append.mp hbefore with hbefore | hbefore
    · exact h.showdowns before hbefore
    · exact (quiet _ hbefore).elim

theorem Ledger.silent (h : Ledger history a) (receipt : b.finalizedReceipt = a.finalizedReceipt)
    (consensus : b.receiptConsensus = a.receiptConsensus) (settled : b.settled = a.settled)
    (reveal : b.pendingReveal.isSome = true → a.settled = false) : Ledger (history ++ []) b :=
  h.frame (fun _ hnone => absurd hnone not_mem_nil) receipt consensus settled reveal

/-- A hand that is to be settled has not been, and nobody collects signatures for it. -/
theorem Ledger.unsettled (h : Ledger (history ++ trace) a) (first : Unsettled trace a) :
    a.settled = false ∧ a.receiptConsensus = none ∧ a.finalizedReceipt = none := by
  have hsettled : a.settled = false := by
    rcases first.first with hfree | ⟨before, hbefore, hsame⟩
    · exact hfree
    · rw [← hsame]
      exact h.showdowns before (mem_append_right _ hbefore)
  have hconsensus : a.receiptConsensus = none := by
    by_contra hsome
    have hset := h.collecting (isSome_iff_ne_none.mpr hsome)
    rw [hsettled] at hset
    exact nomatch hset
  refine ⟨hsettled, hconsensus, ?_⟩
  by_contra hsome
  obtain ⟨consensus, hcollecting, -⟩ := h.closed (isSome_iff_ne_none.mpr hsome)
  rw [hconsensus] at hcollecting
  exact nomatch hcollecting

theorem quiet_commitEffects {origin : ActionOrigin} {sequence : Nat} {action : SignedHandAction}
    (effect : HandEffect L.ziffle) (h : effect ∈ commitEffects a origin sequence action) :
    effect.IsQuiet := by
  rcases mem_cons.mp h with rfl | h
  · exact trivial
  · cases origin with
    | «local» =>
      cases mem_singleton.mp h
      exact trivial
    | remote => exact absurd h not_mem_nil

theorem Contributes.quiet {indices : List UInt8} {shares : Shares}
    {created : List (HandEffect L.ziffle)} {outbound : List HandPublicMessage}
    (h : Contributes a indices shares created outbound) (effect : HandEffect L.ziffle)
    (heffect : effect ∈ created) : effect.IsQuiet := by
  obtain ⟨_, _, _, rfl, -⟩ := h.creates effect heffect
  exact trivial

theorem Ledger.move (h : Ledger (history ++ trace) a) (move : HandMove L input trace a effects b) :
    Ledger (history ++ trace ++ effects) b := by
  cases move with
  | aside change =>
    obtain ⟨_, _, consensus, _, _, _, hsame, rfl⟩ := change
    refine ⟨?_, fun hsome => ?_, fun hsome => ?_, h.revealing, ?_⟩
    · simpa using h.finalized
    · obtain ⟨before, hbefore, hfinal⟩ := h.closed hsome
      rw [hbefore] at hsame
      cases hsame with
      | some receipt closed => exact ⟨_, rfl, closed hfinal⟩
    · refine h.collecting ?_
      generalize hcollected : a.receiptConsensus = collected at hsame
      cases hsame with
      | none => exact hsome
      | some => rfl
    · simpa using h.showdowns
  | advanced now origin sequence action hand hand' outcome reason indices shares created outbound
      acceptable betting acted called contributes =>
    refine h.frame (fun effect heffect => ?_) rfl rfl rfl fun _ => acceptable.unsettled
    rcases mem_append.mp heffect with heffect | heffect
    · rcases mem_append.mp heffect with heffect | heffect
      · exact quiet_commitEffects effect heffect
      · exact contributes.quiet effect heffect
    · obtain ⟨message, -, rfl⟩ := mem_map.mp heffect
      exact trivial
  | stalled now origin sequence action hand hand' outcome reason indices shares created acceptable
      betting acted called contributes =>
    refine h.frame (fun effect heffect => ?_) rfl rfl rfl h.revealing
    rcases mem_append.mp heffect with heffect | heffect
    · exact quiet_commitEffects effect heffect
    · exact contributes.quiet effect heffect
  | committed => exact h.frame quiet_commitEffects rfl rfl rfl h.revealing
  | streetRevealed => exact h.silent rfl rfl rfl (fun hnone => nomatch hnone)
  | showdownLost => exact h.silent rfl rfl rfl (fun hnone => nomatch hnone)
  | showdownRun pending hand board holes free asked =>
    -- The record of the showdown says that the hand is open.
    have hopen : a.settled = false := h.revealing (by rw [asked]; rfl)
    refine ⟨?_, h.closed, h.collecting, fun hnone => (nomatch hnone), fun before hbefore => ?_⟩
    · exact (finalizedOf_concat rfl).trans h.finalized
    · rcases mem_append.mp hbefore with hbefore | hbefore
      · exact h.showdowns before hbefore
      · cases mem_singleton.mp hbefore
        exact hopen
  | settled execution settlement receipt consensus signature free balances built signed first =>
    obtain ⟨-, hnone, hunfinished⟩ := h.unsettled first
    refine ⟨?_, fun hsome => ?_, fun _ => rfl, fun hsome => ?_, fun before hbefore => ?_⟩
    · exact (finalizedOf_concat rfl).trans h.finalized
    · rw [hunfinished] at hsome
      exact nomatch hsome
    · rw [first.noReveal] at hsome
      exact nomatch hsome
    · rcases mem_append.mp hbefore with hbefore | hbefore
      · exact h.showdowns before hbefore
      · exact nomatch mem_singleton.mp hbefore
  | wedged execution settlement free balances failed first =>
    obtain ⟨-, hnone, hunfinished⟩ := h.unsettled first
    refine ⟨?_, h.closed, fun _ => rfl, fun hsome => ?_, fun before hbefore => ?_⟩
    · exact (finalizedOf_concat rfl).trans h.finalized
    · rw [first.noReveal] at hsome
      exact nomatch hsome
    · rcases mem_append.mp hbefore with hbefore | hbefore
      · exact h.showdowns before hbefore
      · exact nomatch mem_singleton.mp hbefore
  | finalized now before after receipt collecting unfinished complete =>
    -- An open consensus has not finalized anything.
    have hfirst : a.finalizedReceipt = none := by
      by_contra hsome
      obtain ⟨consensus, hconsensus, hfinal⟩ := h.closed (isSome_iff_ne_none.mpr hsome)
      cases Option.some.inj (collecting.symm.trans hconsensus)
      rw [unfinished] at hfinal
      exact nomatch hfinal
    have hafter : after.finalized = true := by
      rcases ReceiptConsensus.tryFinalize_eq_ok complete with ⟨hnone, -⟩ | ⟨_, -, -, -, rfl⟩
      · exact nomatch hnone
      · rfl
    refine ⟨?_, fun _ => ⟨after, rfl, hafter⟩, fun _ => ?_, h.revealing, fun other hother => ?_⟩
    · rw [finalizedOf_append, h.finalized, hfirst]
      rfl
    · exact h.collecting (by rw [collecting]; rfl)
    · rcases mem_append.mp hother with hother | hother
      · exact h.showdowns other hother
      · exact nomatch mem_singleton.mp hother
  | sent | relayed | holeShareCreated | sentPrivate | resumed =>
    refine h.frame (fun effect heffect => ?_) rfl rfl rfl h.revealing
    cases mem_singleton.mp heffect
    exact trivial
  | _ => exact h.silent rfl rfl rfl h.revealing

theorem ledger_initialHand {table : ReadyTable} {seed : L.ziffle.Seed}
    (h : initialHand L table seed = .ok a) : Ledger [] a := by
  obtain ⟨engine, localSeat, -, rfl⟩ := initialHand_eq_ok h
  exact ⟨rfl, fun h => (nomatch h), fun h => (nomatch h), fun h => (nomatch h),
    fun _ h => absurd h not_mem_nil⟩

/-! ## All hands of a peer -/

/-- The receipts that the hands of a peer have finalized. -/
def finalizations {Z : Ziffle} (trace : List (RuntimeEffect Z)) : List CoSignedReceipt :=
  trace.filterMap fun
    | .hand effect => effect.finalized?
    | .exported _ => none

/-- The receipts that have been taken. -/
def exports {Z : Ziffle} (trace : List (RuntimeEffect Z)) : List CoSignedReceipt :=
  trace.filterMap fun
    | .hand _ => none
    | .exported receipt => some receipt

section

variable {Z : Ziffle} (trace : List (RuntimeEffect Z)) (effects : List (HandEffect Z))
  (receipts : List CoSignedReceipt)

theorem finalizations_append_hand :
    finalizations (trace ++ effects.map .hand) = finalizations trace ++ finalizedOf effects := by
  simp only [finalizations, finalizedOf, filterMap_append, filterMap_map]
  rfl

theorem exports_append_hand : exports (trace ++ effects.map .hand) = exports trace := by
  simp [exports, filterMap_append, filterMap_map]

theorem finalizations_append_exported :
    finalizations (trace ++ receipts.map .exported) = finalizations trace := by
  simp [finalizations, filterMap_append, filterMap_map]

theorem exports_append_exported :
    exports (trace ++ receipts.map .exported) = exports trace ++ receipts := by
  simp [exports, filterMap_append, filterMap_map]

end

/-- The receipts that have been taken or can still be taken. -/
def held {Z : Ziffle} (s : Traced (HandRuntime Z) (RuntimeEffect Z)) : List CoSignedReceipt :=
  exports s.trace ++ s.active.pendingExports ++ s.active.unexported.toList

/-- The active hand keeps a ledger, and only a receipt that exists has been taken. -/
structure Orderly (runtime : HandRuntime L.ziffle) : Prop where
  ledger : ∀ running, runtime.active = some running → ∃ history, Ledger history running.hand
  taken : ∀ running, runtime.active = some running → running.finalizedReceiptExported = true →
    running.hand.finalizedReceipt.isSome = true

theorem Orderly.of_idle {runtime : HandRuntime L.ziffle} (h : runtime.active = none) :
    Orderly runtime := by
  constructor
  · intro running hactive
    rw [h] at hactive
    exact nomatch hactive
  · intro running hactive
    rw [h] at hactive
    exact nomatch hactive

/-- From `s` to `t` the receipts that can be taken grow by those that are finalized. -/
structure Advance (s t : Traced (HandRuntime L.ziffle) (RuntimeEffect L.ziffle)) : Prop where
  orderly : Orderly t.active
  grows : ∃ new, finalizations t.trace = finalizations s.trace ++ new ∧ held t = held s ++ new

variable {s t : Traced (HandRuntime L.ziffle) (RuntimeEffect L.ziffle)}

theorem Advance.refl (h : Orderly s.active) : Advance s s :=
  ⟨h, [], (append_nil _).symm, (append_nil _).symm⟩

theorem Advance.trans {u : Traced (HandRuntime L.ziffle) (RuntimeEffect L.ziffle)} (h : Advance s t)
    (h' : Advance t u) : Advance s u := by
  obtain ⟨new, hfinalized, hheld⟩ := h.grows
  obtain ⟨new', hfinalized', hheld'⟩ := h'.grows
  refine ⟨h'.orderly, new ++ new', ?_, ?_⟩
  · rw [hfinalized', hfinalized, append_assoc]
  · rw [hheld', hheld, append_assoc]

/-- A change that finalizes nothing. -/
theorem Advance.still (orderly : Orderly t.active) (trace : t.trace = s.trace)
    (same : held t = held s) : Advance s t :=
  ⟨orderly, [], by rw [trace, append_nil], by rw [same, append_nil]⟩

namespace HandRuntime

variable {s₀ s : Traced (HandRuntime L.ziffle) (RuntimeEffect L.ziffle)}

/-- A call of the active hand. -/
theorem advance_onActive {call : ActiveHandM L.ziffle Unit} (h : Advance s₀ s)
    (came : ∀ a, Ends (Came L input a) { active := a, trace := [] } call) :
    Ends (Advance s₀) s (onActive call) := by
  have hgoal : ∀ running, s.active.active = some running →
      ∀ t, Came L input running.hand t → Advance s₀
        { active := { s.active with active := some { running with hand := t.active } }
          trace := s.trace ++ t.trace.map .hand } := by
    intro running hactive t ht
    obtain ⟨history, hledger⟩ := h.orderly.ledger running hactive
    have hledger' : Ledger (history ++ t.trace) t.active := ht.moves.keep Ledger.move hledger
    have hnew := hledger'.finalized
    rw [finalizedOf_append, hledger.finalized] at hnew
    -- A receipt that has been taken is the one of this hand: nothing is new.
    have htaken : running.finalizedReceiptExported = true →
        finalizedOf t.trace = [] ∧ t.active.finalizedReceipt.isSome = true := by
      intro hexported
      obtain ⟨receipt, hreceipt⟩ := isSome_iff_exists.mp (h.orderly.taken running hactive hexported)
      rw [hreceipt] at hnew
      cases hlast : t.active.finalizedReceipt with
      | none =>
        rw [hlast] at hnew
        exact nomatch hnew
      | some last =>
        rw [hlast] at hnew
        exact ⟨(List.cons.inj hnew).2, rfl⟩
    refine h.trans ⟨⟨?_, ?_⟩, finalizedOf t.trace, finalizations_append_hand _ _, ?_⟩
    · rintro _ ⟨⟩
      exact ⟨_, hledger'⟩
    · rintro _ ⟨⟩ hexported
      exact (htaken hexported).2
    · simp only [held, unexported, hactive, bind_some, exports_append_hand, append_assoc]
      by_cases hexported : running.finalizedReceiptExported = true
      · simp [hexported, (htaken hexported).1]
      · simp [hexported, hnew]
  unfold Ends
  have hrun : (onActive call).run s = onActive call s := rfl
  rw [hrun, onActive]
  split
  · exact h
  next running hactive =>
    have hcame := came running.hand
    unfold Ends at hcame
    dsimp only
    split
    next heq =>
      rw [heq] at hcame
      exact hgoal running hactive _ hcame
    next heq =>
      rw [heq] at hcame
      exact hgoal running hactive _ hcame

theorem advance_command {call : HandCommand L.ziffle} (h : Advance s₀ s) :
    Ends (Advance s₀) s (command L call) := by
  have honActive : Ends (Advance s₀) s (onActive (call.run L)) :=
    advance_onActive h fun a => call.came a
  refine ends_getActive ?_
  cases call with
  | publicMessage | privateMessage | submitAction => exact honActive
  | _ => exact .ite (fun _ => .pure h) fun _ => honActive

variable {execution : HandExecutionContext L.ziffle}
  {begun : TracedHand L.ziffle}

theorem advance_deliver {delivery : InboundHandDelivery} (h : Advance s₀ s) :
    Ends (Advance s₀) s (deliver L execution delivery) := by
  refine ends_getActive (.ite (fun _ => ?_) fun _ => advance_command h)
  refine ends_getActive (.ite (fun _ => .pure h) fun _ => ends_check_bind h fun _ => ?_)
  exact ends_update (h.trans (.still ⟨h.orderly.ledger, h.orderly.taken⟩ rfl rfl))

/-- The last hand is put away with its receipt, or it has none. -/
theorem advance_retire (h : Advance s₀ s) :
    Returns (fun _ t => Advance s₀ t ∧ t.active.active = none) (Advance s₀) s
      (retire : HandRuntimeM L.ziffle Unit) := by
  refine returns_getActive ?_
  split
  next hactive => exact .pure ⟨h, hactive⟩
  next completed hactive =>
    refine returns_update_bind (returns_expect_bind (fun e he => ?_) fun receipt hreceipt => ?_)
    · -- The hand has not finalized a receipt.
      have hnone : completed.hand.finalizedReceipt = none := by
        cases hfinal : completed.hand.finalizedReceipt with
        | none => rfl
        | some receipt =>
          rw [hfinal] at he
          exact nomatch he
      refine h.trans (.still (.of_idle rfl) rfl ?_)
      simp [held, unexported, hactive, hnone]
    · have hreceipt := okOr_eq_ok.mp hreceipt
      refine .ite (fun hexported => ?_) fun hexported => ?_
      · refine .pure ⟨h.trans (.still (.of_idle rfl) rfl ?_), rfl⟩
        simp [held, unexported, hactive, hexported]
      · refine returns_update ⟨h.trans (.still (.of_idle rfl) rfl ?_), rfl⟩
        simp [held, unexported, hactive, hexported, hreceipt]

theorem ledger_initializeHand {table : ReadyTable} {seed : L.ziffle.Seed}
    (h : initializeHand L table seed execution = .ok begun) : Ledger begun.trace begun.active := by
  obtain ⟨active, hinitial, h⟩ := bind_eq_ok.mp h
  have hcame : Ends (Came L none active) { active, trace := [] } (beginHand L execution) :=
    came_beginHand .refl
  split at h
  next hbegin =>
    cases h
    have hkept : Ledger ([] ++ begun.trace) begun.active :=
      (hcame.of_ok hbegin).moves.keep Ledger.move (ledger_initialHand hinitial)
    exact hkept
  · exact nomatch h

/-- The runtime with a new hand. -/
def withHand (s : Traced (HandRuntime L.ziffle) (RuntimeEffect L.ziffle))
    (begun : TracedHand L.ziffle) :
    Traced (HandRuntime L.ziffle) (RuntimeEffect L.ziffle) :=
  { active := { s.active with
      active := some { hand := begun.active, finalizedReceiptExported := false
                       boundaryExported := false } }
    trace := s.trace ++ begun.trace.map .hand }

theorem ends_takeUp_bind {Q : Traced (HandRuntime L.ziffle) (RuntimeEffect L.ziffle) → Prop}
    {k : Unit → HandRuntimeM L.ziffle Unit} (h : Ends Q (withHand s begun) (k ())) :
    Ends Q s (takeUp begun >>= k) := h

theorem advance_start {table : ReadyTable} {seed : L.ziffle.Seed} (h : Advance s₀ s) :
    Ends (Advance s₀) s (start L table seed execution) := by
  refine ends_check_bind h fun _ => ends_expect_bind h fun begun hbegun => ?_
  have hledger := ledger_initializeHand hbegun
  refine (advance_retire h).ends_bind fun _ t ht => ?_
  obtain ⟨hadvance, hidle⟩ := ht
  -- The new hand brings the receipts it has finalized at once, if any.
  have htaken : Advance s₀ (withHand t begun) := by
    refine hadvance.trans ⟨⟨?_, ?_⟩, finalizedOf begun.trace, finalizations_append_hand _ _, ?_⟩
    · rintro _ ⟨⟩
      exact ⟨_, hledger⟩
    · rintro _ ⟨⟩ hexported
      exact nomatch hexported
    · simp [held, unexported, withHand, hidle, exports_append_hand, hledger.finalized]
  refine ends_takeUp_bind (ends_getActive (ends_update_bind (ends_forEach ?_ ?_)))
  · exact htaken.trans (.still ⟨htaken.orderly.ledger, htaken.orderly.taken⟩ rfl rfl)
  · exact fun delivery _ u hu => ends_attempt (advance_deliver hu)

theorem advance_takeHandBoundary (h : Advance s₀ s) : Ends (Advance s₀) s (takeHandBoundary L) := by
  refine ends_getActive ?_
  split
  · exact .pure h
  next running hactive =>
    refine .ite (fun _ => .pure h) fun _ => ?_
    split
    · exact .pure h
    · refine ends_expect_bind h fun boundary _ => ends_update_bind (.pure ?_)
      refine h.trans (.still ⟨?_, ?_⟩ rfl ?_)
      · rintro _ ⟨⟩
        exact h.orderly.ledger running hactive
      · rintro _ ⟨⟩
        exact h.orderly.taken running hactive
      · simp [held, unexported, hactive]

/-- What can be taken is the same, and all of it has been taken. -/
structure Taken (s t : Traced (HandRuntime L.ziffle) (RuntimeEffect L.ziffle)) : Prop where
  orderly : Orderly t.active
  finalized : finalizations t.trace = finalizations s.trace
  same : held t = held s
  all : held t = exports t.trace

theorem taken_takeNewlyFinalizedReceipts (h : Orderly s.active) :
    Ends (Taken s) s
      (takeNewlyFinalizedReceipts : HandRuntimeM L.ziffle (List CoSignedReceipt)) := by
  -- The end of the call, for the receipts that it returns and the flag that it sets.
  have hgoal : ∀ (receipts : List CoSignedReceipt) (active : Option (RunningHand L.ziffle)),
      receipts = s.active.pendingExports ++ s.active.unexported.toList →
      Orderly (L := L) { s.active with active := active, pendingExports := [] } →
      unexported { s.active with active := active, pendingExports := [] } = none →
      Ends (Taken s) { s with active := { s.active with active := active, pendingExports := [] } }
        (handOut receipts) := by
    intro receipts active hreceipts horderly htaken
    have hrun : (forEach (fun receipt => record (.exported receipt)) receipts :
        HandRuntimeM L.ziffle Unit).run
          { s with active := { s.active with active := active, pendingExports := [] } } =
        .ok () _ := run_forEach_record
    unfold Ends handOut
    rw [run_bind_ok hrun]
    refine ⟨horderly, finalizations_append_exported _ _, ?_, ?_⟩
    · simp [held, exports_append_exported, htaken]
      simp [hreceipts]
    · simp [held, htaken]
  have hkept : Orderly (L := L) { s.active with active := s.active.active, pendingExports := [] } :=
    ⟨h.ledger, h.taken⟩
  refine ends_getActive (ends_update_bind ?_)
  split
  next hactive =>
    refine hgoal _ _ ?_ hkept ?_
    · simp [unexported, hactive]
    · simp [unexported, hactive]
  next running hactive =>
    split
    next hexported =>
      refine hgoal _ _ ?_ hkept ?_
      · simp [unexported, hactive, hexported]
      · simp [unexported, hactive, hexported]
    next hexported =>
      split
      next hnone =>
        refine hgoal _ _ ?_ hkept ?_
        · simp [unexported, hactive, hnone]
        · simp [unexported, hactive, hnone]
      next receipt hreceipt =>
        refine hgoal _ _ ?_ ⟨?_, ?_⟩ ?_
        · simp [unexported, hactive, hexported, hreceipt]
        · rintro _ ⟨⟩
          exact h.ledger running hactive
        · rintro _ ⟨⟩ -
          simp [hreceipt]
        · simp [unexported]

end HandRuntime

/-! ## Runs -/

/-- The call does not drop a receipt that nobody has taken. -/
def RuntimeCall.Spares (runtime : HandRuntime L.ziffle) : RuntimeCall L.ziffle → Prop
  | .leave => runtime.unexported = none
  | .abortForSignedLeave tableId handNumber =>
    runtime.active.any (fun running => HandRuntime.InScope running tableId handNumber) = true →
      runtime.unexported = none
  | _ => True

/-- The receipts finalized in a run. -/
def finalizedBy (L : HandPrimitives) (calls : List (RuntimeCall L.ziffle)) : List CoSignedReceipt :=
  finalizations (afterAll L calls).trace

/-- The receipts taken in a run. -/
def exportedBy (L : HandPrimitives) (calls : List (RuntimeCall L.ziffle)) : List CoSignedReceipt :=
  exports (afterAll L calls).trace

/-- Every call of the run spares the receipts. -/
def Sparing (L : HandPrimitives) (calls : List (RuntimeCall L.ziffle)) : Prop :=
  ∀ before call rest, calls = before ++ call :: rest →
    call.Spares (afterAll L before).active

theorem sparing_concat {calls : List (RuntimeCall L.ziffle)} {call : RuntimeCall L.ziffle} :
    Sparing L (calls ++ [call]) ↔ Sparing L calls ∧ call.Spares (afterAll L calls).active := by
  constructor
  · intro h
    refine ⟨fun before other rest hcalls => h before other (rest ++ [call]) ?_, h calls call [] rfl⟩
    rw [hcalls, append_assoc, cons_append]
  · rintro ⟨hcalls, hcall⟩ before other rest heq
    rcases eq_nil_or_concat' rest with rfl | ⟨rest', last, rfl⟩
    · obtain ⟨rfl, hlast⟩ := append_inj' heq rfl
      cases hlast
      exact hcall
    · rw [← cons_append, ← append_assoc] at heq
      obtain ⟨hfront, -⟩ := append_inj' heq rfl
      exact hcalls before other rest' hfront

section

variable {s : Traced (HandRuntime L.ziffle) (RuntimeEffect L.ziffle)}

/-- The active hand is dropped. -/
def dropped (s : Traced (HandRuntime L.ziffle) (RuntimeEffect L.ziffle)) :
    Traced (HandRuntime L.ziffle) (RuntimeEffect L.ziffle) :=
  { s with active := { s.active with active := none } }

/-- With the hand goes a receipt that has not been taken. -/
theorem held_dropped : held s = held (dropped s) ++ s.active.unexported.toList := by
  simp [held, dropped, HandRuntime.unexported]

theorem Advance.dropped (h : s.active.unexported = none) : Advance s (dropped s) := by
  refine .still (.of_idle rfl) rfl ?_
  have hheld := held_dropped (s := s)
  rw [h, toList_none, append_nil] at hheld
  exact hheld.symm

theorem RuntimeCall.takes (h : Orderly s.active) :
    HandRuntime.Taken s (endState ((RuntimeCall.takeNewlyFinalizedReceipts.run L).run s)) :=
  (HandRuntime.taken_takeNewlyFinalizedReceipts h).seq fun _ _ ht => .pure ht

variable {call : RuntimeCall L.ziffle}

/-- A call that spares the receipts only adds what it finalizes. -/
theorem RuntimeCall.advance (h : Orderly s.active) (spares : call.Spares s.active) :
    Advance s (endState ((call.run L).run s)) := by
  have hstart := Advance.refl h
  cases call with
  | start table seed execution => exact HandRuntime.advance_start hstart
  | command call => exact HandRuntime.advance_command hstart
  | deliver execution delivery => exact HandRuntime.advance_deliver hstart
  | takeHandBoundary =>
    exact (HandRuntime.advance_takeHandBoundary hstart).seq fun _ t ht => .pure ht
  | takeNewlyFinalizedReceipts =>
    have htaken := takes h
    refine ⟨htaken.orderly, [], ?_, ?_⟩
    · rw [htaken.finalized, append_nil]
    · rw [htaken.same, append_nil]
  | leave => exact Advance.dropped spares
  | abortForSignedLeave tableId handNumber =>
    refine ends_getActive (ends_expect_bind hstart fun running hactive => ?_)
    refine ends_check_bind hstart fun hscope => ends_update (Advance.dropped (spares ?_))
    simp [okOr_eq_ok.mp hactive, hscope]

theorem HandRuntime.run_abortForSignedLeave {tableId : TableId} {handNumber : UInt64}
    {running : RunningHand L.ziffle} (active : s.active.active = some running)
    (scope : InScope running tableId handNumber) :
    (run L (.abortForSignedLeave tableId handNumber)).run s = .ok () (dropped s) := by
  have hread : (getActive : HandRuntimeM L.ziffle _).run s = .ok s.active s := rfl
  have hfound : (expect (okOr (.message "待作废的手牌运行时不存在") s.active.active) :
      HandRuntimeM L.ziffle _).run s = .ok running s := by
    rw [active]
    rfl
  have hcheck : (check (InScope running tableId handNumber)
      (.message "签名离桌证据与当前手牌范围不一致") : HandRuntimeM L.ziffle _).run s = .ok () s := by
    rw [check, if_pos scope]
    rfl
  rw [run, abortForSignedLeave, run_bind_ok hread, run_bind_ok hfound, run_bind_ok hcheck]
  rfl

/-- A call that does not loses one. -/
theorem RuntimeCall.loses (h : ¬call.Spares s.active) :
    Orderly (endState ((call.run L).run s)).active ∧
      finalizations (endState ((call.run L).run s)).trace = finalizations s.trace ∧
      ∃ receipt, held s = held (endState ((call.run L).run s)) ++ [receipt] := by
  cases call with
  | leave =>
    obtain ⟨receipt, hreceipt⟩ := ne_none_iff_exists'.mp h
    exact ⟨.of_idle rfl, rfl, receipt, held_dropped.trans (by rw [hreceipt]; rfl)⟩
  | abortForSignedLeave tableId handNumber =>
    obtain ⟨hmatch, hunexported⟩ := Classical.not_imp.mp h
    obtain ⟨receipt, hreceipt⟩ := ne_none_iff_exists'.mp hunexported
    obtain ⟨running, hactive, hscope⟩ := (Option.any_eq_true _ _).mp hmatch
    rw [HandRuntime.run_abortForSignedLeave hactive (of_decide_eq_true hscope)]
    exact ⟨.of_idle rfl, rfl, receipt, held_dropped.trans (by rw [hreceipt]; rfl)⟩
  | _ => exact absurd trivial h

end

theorem orderly_afterAll (calls : List (RuntimeCall L.ziffle)) :
    Orderly (afterAll L calls).active := by
  induction calls using reverseRecOn with
  | nil => exact ⟨fun _ hnone => (nomatch hnone), fun _ hnone => (nomatch hnone)⟩
  | append_singleton calls call ih =>
    rw [afterAll_concat]
    by_cases hspares : call.Spares (afterAll L calls).active
    · exact (advance ih hspares).orderly
    · exact (loses hspares).1

/-- What can be taken is part of what has been finalized, and all of it exactly if every
call has spared the receipts. -/
theorem held_afterAll (calls : List (RuntimeCall L.ziffle)) :
    (held (afterAll L calls)).Sublist (finalizedBy L calls) ∧
      (held (afterAll L calls) = finalizedBy L calls ↔ Sparing L calls) := by
  induction calls using reverseRecOn with
  | nil => exact ⟨Sublist.refl _, fun _ before call rest h => by simp at h, fun _ => rfl⟩
  | append_singleton calls call ih =>
    obtain ⟨hsub, hiff⟩ := ih
    rw [sparing_concat, ← hiff, finalizedBy, afterAll_concat]
    by_cases hspares : call.Spares (afterAll L calls).active
    · obtain ⟨new, hfinalized, hheld⟩ := (advance (orderly_afterAll calls) hspares).grows
      rw [hfinalized, hheld]
      refine ⟨hsub.append (Sublist.refl new), ?_⟩
      rw [append_left_inj, and_iff_left hspares]
      rfl
    · obtain ⟨-, hfinalized, receipt, hheld⟩ := loses hspares
      rw [hheld] at hsub
      rw [hfinalized]
      refine ⟨(sublist_append_left _ _).trans hsub, ?_⟩
      -- The list that can be taken has become too short.
      have hlength := hsub.length_le
      rw [length_append, length_singleton] at hlength
      refine iff_of_false (fun heq => ?_) fun hboth => hspares hboth.2
      rw [heq] at hlength
      exact Nat.not_succ_le_self _ hlength

/-- In every run the receipts that have been taken are part of those that have been
finalized, in the same order and none more often. The next call of
`take_newly_finalized_receipts` completes them exactly if no hand has been left or aborted
with a receipt that had not been taken. -/
theorem receipts_exported_once (L : HandPrimitives) (calls : List (RuntimeCall L.ziffle)) :
    (exportedBy L calls).Sublist (finalizedBy L calls) ∧
      (exportedBy L (calls ++ [.takeNewlyFinalizedReceipts]) = finalizedBy L calls ↔
        ∀ before call rest, calls = before ++ call :: rest →
          call.Spares (afterAll L before).active) := by
  obtain ⟨hsub, hiff⟩ := held_afterAll calls
  constructor
  · refine Sublist.trans ?_ hsub
    rw [held, append_assoc]
    exact sublist_append_left _ _
  · have htaken := takes (orderly_afterAll calls)
    rw [exportedBy, afterAll_concat, ← htaken.all, htaken.same]
    exact hiff

/-! ## A receipt that is lost -/

/-- A call of a script, chosen by the state in which it is made. -/
abbrev RuntimeTurn (L : HandPrimitives) := HandRuntime L.ziffle → RuntimeCall L.ziffle

/-- The calls of a script that starts in a state. -/
def scriptCalls (L : HandPrimitives) (s : Traced (HandRuntime L.ziffle) (RuntimeEffect L.ziffle)) :
    List (RuntimeTurn L) → List (RuntimeCall L.ziffle)
  | [] => []
  | turn :: rest =>
    let call := turn s.active
    call :: scriptCalls L (endState ((call.run L).run s)) rest

/-- The end of a script. -/
def playScript (L : HandPrimitives) (s : Traced (HandRuntime L.ziffle) (RuntimeEffect L.ziffle)) :
    List (RuntimeTurn L) → Traced (HandRuntime L.ziffle) (RuntimeEffect L.ziffle)
  | [] => s
  | turn :: rest => playScript L (endState (((turn s.active).run L).run s)) rest

theorem afterAll_scriptCalls (turns : List (RuntimeTurn L)) :
    afterAll L (scriptCalls L { active := .idle, trace := [] } turns) =
      playScript L { active := .idle, trace := [] } turns := by
  have hfold : ∀ s, (scriptCalls L s turns).foldl
      (fun s call => endState ((call.run L).run s)) s = playScript L s turns := by
    induction turns with
    | nil => exact fun _ => rfl
    | cons turn rest ih => exact fun _ => ih _
  exact hfold _

/-- A call of the active hand. -/
def RuntimeTurn.ofHand (turn : HandTurn HandPrimitives.plain) : RuntimeTurn HandPrimitives.plain :=
  fun runtime => match runtime.active with
    | none => .takeHandBoundary
    | some running => .command (turn running.hand)

/-- The other player signs the receipt of the hand. -/
def HandTurn.coSign (elapsed : Nat) : HandTurn HandPrimitives.plain := fun active =>
  match active.receiptConsensus with
  | none => .requestSafeLeave
  | some consensus =>
    match ParticipantSignature.create .plain consensus.receipt ⟨FixedBytes.ofNat 2⟩
        (seatCertificate 1) (Room.plainEpoch + UInt64.ofNat elapsed) with
    | .error _ => .requestSafeLeave
    | .ok signature => .publicMessage (seatExecution 0 elapsed) (some ⟨2⟩)
        (.receiptSignature active.scope consensus.receipt signature)

/-- The dealer folds, the other player signs the receipt, and the hand is left. -/
def foldAndLeave : List (RuntimeTurn HandPrimitives.plain) :=
  (fun _ => .start (pairTable oneTwoLevel [chips 40, chips 40] 0) ()
      (seatExecution 0 0)) ::
    (dealTurns ++ [HandTurn.act 6 .fold, HandTurn.coSign 7]).map RuntimeTurn.ofHand ++
    [fun _ => .leave]

/-- A receipt with all signatures is gone when the hand is left before it has been
taken. -/
theorem leave_drops_receipt :
    ∃ calls : List (RuntimeCall HandPrimitives.plain.ziffle),
      (finalizedBy .plain calls).length = 1 ∧
      exportedBy .plain (calls ++ [.takeNewlyFinalizedReceipts]) = [] := by
  refine ⟨scriptCalls .plain { active := .idle, trace := [] } foldAndLeave, ?_⟩
  rw [finalizedBy, exportedBy, afterAll_concat, afterAll_scriptCalls]
  refine ⟨by decide +kernel, length_eq_zero_iff.mp ?_⟩
  decide +kernel

end TokenHoldem
