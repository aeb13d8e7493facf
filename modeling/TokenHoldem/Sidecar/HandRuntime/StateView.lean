import TokenHoldem.Domain.ActionBounds
import TokenHoldem.Sidecar.HandRuntime.Calls
import TokenHoldem.Sidecar.HandRuntime.Play

/-!
# The numbers that a player acts by

`state_event` exports the bet, what the local player has to call, and a lowest and a
highest raise. The console of the interface makes its offers from these numbers. The right
to raise, which the engine checks first, is not among them.

- `HandRun.tidy`: in every state of a hand, a hand won by a fold counts as settled;
- `exported_bounds_exact_iff`: the numbers say exactly what the engine accepts when the
  local player may raise, or could not go above the bet;
- `short_all_in_offers_refused_raise`: after a short all-in the console offers raises that
  the engine refuses.
-/

namespace TokenHoldem

open Library

/-! ## What is exported -/

/-- The fields of `HandEvent::HandState` that actions are chosen by. -/
structure HandStateView where
  currentBet : Chips
  toCall : Chips
  minimumRaiseTo : Chips
  maximumRaiseTo : Chips
  canAct : Bool
deriving DecidableEq

namespace ActiveHand

variable {Z : Ziffle} (active : ActiveHand Z)

/-- `state_event`, with these fields. -/
def stateView (P : Primitives) : Except HandError HandStateView := do
  let hand ← active.betting "下注状态缺失"
  let seat ← okOr (.message "本地座位状态缺失") hand.seats[active.table.localSeat]?
  let maximumRaiseTo ← okOr (.message "本地最大加注额溢出")
    (seat.streetCommitted.checkedAdd seat.stack)
  let _ ← withContext "底池计算失败" .holdem hand.pot
  let _ ← active.localSeatU8
  let toCall ← withContext "无法计算本地跟注额" .holdem (hand.amountToCall active.localPlayer)
  let minimumRaiseTo ← withContext "无法计算最小加注额" .holdem
    (okOr .chipOverflow hand.minimumRaiseTo)
  let _ ← active.publicStateHash P
  return { currentBet := hand.currentBet, toCall, minimumRaiseTo, maximumRaiseTo
           canAct := hand.nextPlayer = some active.localPlayer ∧ active.AllPlayersReady ∧
             active.pendingReveal.isNone ∧ active.actionConflict.isNone ∧
             active.disconnectedPeers = ∅ ∧ active.settled = false }

/-- The event can be built exactly when these fields can. -/
theorem stateEvent_eq (P : Primitives) :
    active.stateEvent P = (active.stateView P).map fun _ => () := by
  unfold stateEvent stateView
  simp only [bind, Except.bind]
  repeat' split
  all_goals rfl

/-- The engine accepts an action of the local player. -/
def Accepts (action : PlayerAction) : Prop :=
  ∃ hand ∈ active.hand, ∃ out hand', (act active.localPlayer action).run hand = .ok out hand'

end ActiveHand

/-! ## What the console offers -/

/-- `clampRaise`, on whole chips. -/
def clampRaise (value minimum maximum : Nat) : Nat :=
  min maximum (max (min minimum maximum) value)

/-- `BET_PRESETS`, in percent of the pot. -/
def betPresets : List Nat := [25, 33, 75, 133]

def betStep : Nat := 10000

def presetRaise (pot percentage minimum maximum : Nat) : Nat :=
  -- `Math.round` of a quotient: half the divisor is added before dividing
  let rounded :=
    (2 * (max pot betStep * percentage) + 100 * betStep) / (2 * (100 * betStep)) * betStep
  clampRaise rounded minimum maximum

namespace HandStateView

variable (view : HandStateView)

/-- `canRaise` of the console. -/
def canRaise : Bool := view.canAct && decide (view.currentBet.value < view.maximumRaiseTo.value)

/-- The raises that the console can send: by the slider, or by a preset. -/
def Offers (amount : Chips) : Prop :=
  view.canRaise = true ∧
    ((∃ value, amount.value =
        clampRaise value view.minimumRaiseTo.value view.maximumRaiseTo.value) ∨
      ∃ pot, ∃ percentage ∈ betPresets, amount.value =
        presetRaise pot percentage view.minimumRaiseTo.value view.maximumRaiseTo.value)

theorem offers_iff {amount : Chips} : view.Offers amount ↔ view.canRaise = true ∧
      min view.minimumRaiseTo.value view.maximumRaiseTo.value ≤ amount.value ∧
      amount.value ≤ view.maximumRaiseTo.value := by
  unfold Offers presetRaise clampRaise
  refine and_congr_right fun _ => ⟨?_, fun hrange => .inl ⟨amount.value, by omega⟩⟩
  rintro (⟨value, hvalue⟩ | ⟨pot, percentage, -, hvalue⟩)
  · omega
  · dsimp only at hvalue
    omega

end HandStateView

/-- The exported numbers say what the engine accepts of the local player, and it accepts
every raise that the console offers. -/
structure ActiveHand.BoundsExact {Z : Ziffle} (active : ActiveHand Z) (view : HandStateView) :
    Prop where
  check : active.Accepts .check ↔ view.toCall.value = 0
  call : active.Accepts .call ↔ 0 < view.toCall.value
  raise : ∀ x : Chips, active.Accepts (.raiseTo x) ↔
    view.currentBet.value < x.value ∧ x.value ≤ view.maximumRaiseTo.value ∧
      (view.minimumRaiseTo.value ≤ x.value ∨ x = view.maximumRaiseTo)
  console : ∀ x : Chips, view.Offers x → active.Accepts (.raiseTo x)

/-! ## Every state of a hand -/

variable {L : HandPrimitives} {table : ReadyTable} {history : List (HandEffect L.ziffle)}
  {active : ActiveHand L.ziffle} {view : HandStateView}

theorem HandRun.tidy (run : HandRun L table history active) : active.Tidy := by
  induction run with
  | @start execution _ active started hinitial hbegin =>
    have hfresh : active.hand = none := by
      obtain ⟨engine, localSeat, -, rfl⟩ := initialHand_eq_ok hinitial
      rfl
    have hcame : Ends (Came L none active) { active, trace := [] } (beginHand L execution) :=
      came_beginHand .refl
    refine (hcame.of_ok hbegin).tidy ⟨fun hand hhand => ?_, fun hand hhand => ?_⟩
    · exact nomatch hfresh.symm.trans hhand
    · exact nomatch hfresh.symm.trans hhand
  | call command _ ih => exact (command.came _).tidy ih

/-- What an exported state says about the betting state. -/
theorem ActiveHand.stateView_eq_ok {P : Primitives} (h : active.stateView P = .ok view)
    (canAct : view.canAct = true) :
    ∃ hand seat, active.hand = some hand ∧ hand.seats[active.table.localSeat]? = some seat ∧
      seat.streetCommitted.checkedAdd seat.stack = some view.maximumRaiseTo ∧
      hand.amountToCall active.localPlayer = .ok view.toCall ∧
      hand.minimumRaiseTo = some view.minimumRaiseTo ∧ view.currentBet = hand.currentBet ∧
      hand.nextPlayer = some active.localPlayer ∧ active.settled = false := by
  unfold stateView at h
  obtain ⟨hand, hhand, h⟩ := bind_eq_ok.mp h
  obtain ⟨seat, hseat, h⟩ := okOr_bind_eq_ok.mp h
  obtain ⟨maximum, hmaximum, h⟩ := okOr_bind_eq_ok.mp h
  obtain ⟨_, -, h⟩ := bind_eq_ok.mp h
  obtain ⟨_, -, h⟩ := bind_eq_ok.mp h
  obtain ⟨toCall, htoCall, h⟩ := bind_eq_ok.mp h
  obtain ⟨minimum, hminimum, h⟩ := bind_eq_ok.mp h
  obtain ⟨_, -, h⟩ := bind_eq_ok.mp h
  cases h
  have hcan := of_decide_eq_true canAct
  exact ⟨hand, seat, okOr_eq_ok.mp hhand, hseat, hmaximum, withContext_eq_ok.mp htoCall,
    okOr_eq_ok.mp (withContext_eq_ok.mp hminimum), rfl, hcan.1, hcan.2.2.2.2.2⟩

/-- The player at an index of the table sits on the seat with that index. -/
theorem Called.idAt_of_seat {level : StakeLevel} {players : List PlayerId} {buyIns : List Chips}
    {dealer i : Nat} {hand : HoldemHand} (hc : Called level (players.zip buyIns) dealer hand)
    (hi : i < hand.size) : hand.idAt i = players.getD i default := by
  have hroster := hc.seatedAt.roster
  have hat : hand.roster[i]? = some (hand.idAt i, (hand.seatAt i).startingStack) := by
    rw [HoldemHand.roster, List.getElem?_map, List.getElem?_eq_getElem hi,
      ← HoldemHand.seatAt_eq_getElem hi]
    rfl
  rw [hroster, List.getElem?_zip_eq_some] at hat
  rw [List.getD_eq_getElem?_getD, hat.1, Option.getD_some]

/-- The exported numbers are exact in every state of a hand in which the local player
can act and may raise, or could not go above the bet; and in no other. -/
theorem exported_bounds_exact_iff (run : HandRun L table history active)
    (exported : active.stateView L.toPrimitives = .ok view) (canAct : view.canAct = true) :
    active.BoundsExact view ↔
      ∃ hand ∈ active.hand, hand.BoundsDecide active.table.localSeat := by
  obtain ⟨hand, seat, hhand, hseat, hmaximum, htoCall, hminimum, hbet, hplayer, hunsettled⟩ :=
    ActiveHand.stateView_eq_ok exported canAct
  have tidy := run.tidy
  have hc := tidy.called hand hhand
  obtain ⟨i, hnext, hid⟩ := Option.map_eq_some_iff.mp hplayer
  -- nobody is asked at the showdown, and a hand won by a fold is settled
  have hs : hand.street.IsBetting := by
    rcases hand.street.betting_or with hs | hs | hs
    · exact hs
    · exact nomatch hnext.symm.trans (hc.onCourse.showdown hs)
    · rcases tidy.settled hand hhand hs with hnone | hsettled
      · exact nomatch hnext.symm.trans hnone
      · exact nomatch hunsettled.symm.trans hsettled
  have hp := hc.onCourse.betting hs
  -- the player on turn sits on the local seat
  obtain ⟨hlt, hat⟩ := List.getElem?_eq_some_iff.mp hseat
  have hlocal : hand.idAt active.table.localSeat = active.localPlayer := hc.idAt_of_seat hlt
  obtain rfl : i = active.table.localSeat :=
    hp.distinct i (hp.next_lt i hnext) _ hlt (hid.trans hlocal.symm)
  have hseatAt : hand.seatAt active.table.localSeat = seat :=
    (HoldemHand.seatAt_eq_getElem hlt).trans hat
  have hmaximum : hand.maximumRaiseTo active.table.localSeat = view.maximumRaiseTo.value := by
    have := Chips.checkedAdd_eq_some.mp hmaximum
    unfold HoldemHand.maximumRaiseTo
    rw [hseatAt]
    omega
  have htoCall : view.toCall.value =
      hand.currentBet.value - (hand.seatAt active.table.localSeat).streetCommitted.value := by
    rw [← hlocal, HoldemHand.amountToCall, hp.distinct.seat_idAt hlt] at htoCall
    rw [← Except.ok.inj htoCall]
    rfl
  have haccepts : ∀ action, active.Accepts action ↔
      hand.Accepts active.table.localSeat action := by
    intro action
    unfold ActiveHand.Accepts HoldemHand.Accepts
    rw [hlocal]
    constructor
    · rintro ⟨hand', hhand', h⟩
      cases Option.some.inj (hhand.symm.trans hhand')
      exact h
    · exact fun h => ⟨hand, hhand, h⟩
  have hcondition : (∃ hand ∈ active.hand, hand.BoundsDecide active.table.localSeat) ↔
      hand.BoundsDecide active.table.localSeat := by
    constructor
    · rintro ⟨hand', hhand', h⟩
      cases Option.some.inj (hhand.symm.trans hhand')
      exact h
    · exact fun h => ⟨hand, hhand, h⟩
  rw [hcondition, ← hc.exactBounds_iff hs hnext hminimum]
  have hcanRaise : view.canRaise = true ↔
      hand.currentBet.value < hand.maximumRaiseTo active.table.localSeat := by
    rw [HandStateView.canRaise, canAct, Bool.true_and, decide_eq_true_eq, hbet, hmaximum]
  constructor
  · intro exact'
    refine ⟨?_, ?_, fun x => ?_, fun habove x hleast hmost => ?_⟩
    · rw [← haccepts, exact'.check, htoCall]
    · rw [← haccepts, exact'.call, htoCall]
    · rw [← haccepts, exact'.raise, hbet, hmaximum, Chips.ext_iff]
    · rw [hmaximum] at hleast hmost
      exact (haccepts _).mp (exact'.console x
        (view.offers_iff.mpr ⟨hcanRaise.mpr habove, hleast, hmost⟩))
  · intro exact'
    refine ⟨?_, ?_, fun x => ?_, fun x hoffered => ?_⟩
    · rw [haccepts, exact'.check, htoCall]
    · rw [haccepts, exact'.call, htoCall]
    · rw [haccepts, exact'.raise, hbet, hmaximum, Chips.ext_iff]
    · obtain ⟨hcan, hleast, hmost⟩ := view.offers_iff.mp hoffered
      rw [← hmaximum] at hleast hmost
      exact (haccepts _).mpr (exact'.offered (hcanRaise.mp hcan) x hleast hmost)

/-! ## A short all-in -/

/-- The small blind has 200 chips, the big blind 90. -/
def unevenTable : ReadyTable := pairTable oneTwoLevel [chips 200, chips 90] 0

/-- The first action of the hand. -/
theorem exported_bounds_exact_first :
    ∃ (history : List (HandEffect Ziffle.plain)) (active : ActiveHand Ziffle.plain),
      HandRun .plain unevenTable history active ∧
      ∃ view, active.stateView .plain = .ok view ∧ view.canAct = true ∧
        active.BoundsExact view := by
  have hplay : (playHand .plain unevenTable () (seatExecution 0 0) dealTurns).any (fun s =>
      decide (∃ view, s.active.stateView .plain = .ok view ∧ view.canAct = true ∧
        ∃ hand ∈ s.active.hand, hand.BoundsDecide s.active.table.localSeat)) = true := by
    decide +kernel
  obtain ⟨s, hrun, hcheck⟩ := exists_handRun_of_play hplay
  obtain ⟨view, hview, hcan, hdecide⟩ := of_decide_eq_true hcheck
  exact ⟨s.trace, s.active, hrun, view, hview, hcan,
    (exported_bounds_exact_iff hrun hview hcan).mpr hdecide⟩

/-- The small blind raises to 60 and the big blind goes all-in with 90: that is no full
raise. The console offers the small blind raises from 148 to 200, and the engine refuses
them all. -/
theorem short_all_in_offers_refused_raise :
    ∃ (history : List (HandEffect Ziffle.plain)) (active : ActiveHand Ziffle.plain),
      HandRun .plain unevenTable history active ∧
      ∃ view, active.stateView .plain = .ok view ∧ view.canAct = true ∧
        view.Offers (chips 148) ∧ ¬active.Accepts (.raiseTo (chips 148)) := by
  have hplay : (playHand .plain unevenTable () (seatExecution 0 0) (dealTurns ++
      [.act 6 (.raiseTo (chips 60)), .hearAction 7 1000007 (.raiseTo (chips 90))])).any (fun s =>
        decide (s.active.stateView .plain = .ok
          { currentBet := chips 90, toCall := chips 30, minimumRaiseTo := chips 148
            maximumRaiseTo := chips 200, canAct := true } ∧
          ∃ hand ∈ s.active.hand, (act s.active.localPlayer (.raiseTo (chips 148))).run hand =
            .error .raiseNotReopened hand)) = true := by
    decide +kernel
  obtain ⟨s, hrun, hcheck⟩ := exists_handRun_of_play hplay
  obtain ⟨hview, hand, hhand, hrefused⟩ := of_decide_eq_true hcheck
  refine ⟨s.trace, s.active, hrun, _, hview, rfl, ?_, ?_⟩
  · exact (HandStateView.offers_iff _).mpr (by decide)
  · rintro ⟨hand', hhand', out, after, haccepted⟩
    cases Option.some.inj (hhand.symm.trans hhand')
    exact nomatch hrefused.symm.trans haccepted

end TokenHoldem
