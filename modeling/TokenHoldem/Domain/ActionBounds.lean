import TokenHoldem.Domain.Reopening

/-!
# Which actions the engine accepts

The bet, the chips of the player on turn and the last full raise are public. They are not
all that the engine looks at: a raise also needs the right to raise, which a short all-in
does not give back, and after a fold that overflowed the turn stays with a folded seat.

- `act_ok_iff`: an action is accepted when it can be applied and a last contender can
  be paid;
- `check_applied_iff`, `call_applied_iff`, `raiseTo_applied_iff`: when each action can be
  applied;
- `Called.turn`: whose turn it can be, under any calls;
- `Called.exactBounds_iff`: when the public numbers decide.
-/

namespace TokenHoldem

open Library HoldemHand Finset EStateM Street

variable {h h' h₁ : HoldemHand} {i : Nat} {p : PlayerId} {a : PlayerAction} {out : ActionOutcome}
  {level : StakeLevel} {seats : List (PlayerId × Chips)} {dealer : Nat}

/-! ## Accepting an action -/

/-- One contender is left, whose stack cannot hold the pot. -/
def HoldemHand.PotOverflows (h : HoldemHand) : Prop :=
  ∃ w, h.contenderSeats = {w} ∧
    2 ^ 64 ≤ (h.seatAt w).stack.value + h.wagered

/-- The engine accepts an action of seat `i`. -/
def HoldemHand.Accepts (h : HoldemHand) (i : Nat) (a : PlayerAction) : Prop :=
  ∃ out h', (act (h.idAt i) a).run h = .ok out h'

theorem not_potOverflows (hcard : h.contenderSeats.card ≠ 1) : ¬h.PotOverflows := by
  rintro ⟨w, hw, -⟩
  exact hcard (by rw [hw, card_singleton])

theorem HoldemHand.InPlay.resolveTurn_ok_iff (hp : h.InPlay) (hs : h.street.IsBetting) :
    (∃ out h', (resolveTurn i).run h = .ok out h') ↔ ¬h.PotOverflows := by
  by_cases hone : h.contenderSeats.card = 1
  · obtain ⟨w, hw⟩ := card_eq_one.mp hone
    rcases resolveTurn_of_winner hp.distinct hp.funded hw i with ⟨h₂, hc, hok⟩ | ⟨herr, hover⟩
    · refine iff_of_true ⟨_, _, hok⟩ ?_
      rintro ⟨w', hw', hover⟩
      obtain rfl : w = w' := singleton_injective (hw.symm.trans hw')
      exact absurd hover (hc.pot_fits (winner_lt hw)).not_ge
    · exact iff_of_false (by simp [herr]) (not_not.mpr ⟨w, hw, hover⟩)
  · refine iff_of_true ?_ ?_
    · rw [resolveTurn_of_card_ne_one hone]
      split
      · obtain ⟨out, h', hrun, -⟩ := advanceStreet_run hs
        exact ⟨out, h', hrun⟩
      · rename_i hopen
        obtain ⟨q, hq⟩ := nonempty_iff_ne_empty.mpr hopen
        obtain ⟨j, hj, hid, -⟩ := hp.pending_active q hq
        obtain ⟨k, hk⟩ := nextPendingFrom_isSome ((i + 1) % h.size) hj (hid ▸ hq)
        rw [hk]
        exact ⟨_, _, rfl⟩
    · exact not_potOverflows hone

/-- An action of the player on turn is accepted when it can be applied and leaves
no contender who cannot be paid. -/
theorem HoldemHand.InPlay.act_ok_iff (hp : h.InPlay) (hs : h.street.IsBetting)
    (hnext : h.nextToAct = some i) :
    h.Accepts i a ↔ ∃ h₁, (applyAction i (h.idAt i) a).run h = .ok () h₁ ∧ ¬h₁.PotOverflows := by
  have hi := hp.next_lt i hnext
  unfold Accepts
  simp only [act_run_of_next hnext, if_true, run_bind_eq_ok_iff]
  constructor
  · rintro ⟨out, h', _, h₁, happly, hresolve⟩
    have he := applyAction_eq_ok happly
    exact ⟨h₁, happly, ((hp.of_effect hi he).resolveTurn_ok_iff
      ((he.acted hi).street.symm ▸ hs)).mp ⟨out, h', hresolve⟩⟩
  · rintro ⟨h₁, happly, hpaid⟩
    have he := applyAction_eq_ok happly
    obtain ⟨out, h', hresolve⟩ := ((hp.of_effect hi he).resolveTurn_ok_iff
      ((he.acted hi).street.symm ▸ hs)).mpr hpaid
    exact ⟨out, h', (), h₁, happly, hresolve⟩

/-! ## Applying an action -/

theorem check_applied_iff : (∃ h₁, (applyAction i (h.idAt i) .check).run h = .ok () h₁) ↔
      (h.seatAt i).streetCommitted = h.currentBet := by
  simp only [applyAction, run_bind, run_get]
  split
  · rename_i hne
    exact iff_of_false (by rintro ⟨_, ⟨⟩⟩) hne
  · rename_i heq
    exact iff_of_true ⟨_, rfl⟩ (not_not.mp heq)

theorem SeatState.Funded.call_applied_iff (hf : (h.seatAt i).Funded) :
    (∃ h₁, (applyAction i (h.idAt i) .call).run h = .ok () h₁) ↔
      (h.seatAt i).streetCommitted.value < h.currentBet.value := by
  constructor
  · rintro ⟨h₁, hrun⟩
    cases applyAction_eq_ok hrun with
    | call behind => exact behind
  · intro hbehind
    rcases applyAction_run hf .call with hok | ⟨e, -, -, hle⟩
    · exact hok
    · omega

theorem SeatState.Funded.raiseTo_applied_iff (hf : (h.seatAt i).Funded) (target : Chips) :
    (∃ h₁, (raiseTo i target).run h = .ok () h₁) ↔ h.CanRaiseTo i target := by
  rcases raiseTo_run hf target with ⟨hcan, hok⟩ | ⟨hcannot, e, herr, -⟩
  · exact iff_of_true hok hcan
  · exact iff_of_false (by simp [herr]) hcannot

/-- With the last full raise of the street, the minimum of `raise_to` is the one that
`minimum_raise_to` returns. -/
theorem HoldemHand.RaiseFloor.minimumTarget (hr : h.RaiseFloor) {minimum : Chips}
    (hminimum : h.minimumRaiseTo = some minimum) : h.minimumTarget = some minimum := by
  unfold HoldemHand.minimumTarget
  split
  · rename_i hzero
    have hsum := Chips.checkedAdd_eq_some.mp hminimum
    rw [hr.unopened hzero, hzero, Chips.zero_value] at hsum
    exact congrArg some (Chips.ext (by omega))
  · exact hminimum

/-! ## Whose turn it is -/

/-- The seat has to act, and nobody is left who cannot be paid. -/
structure HoldemHand.Asked (h : HoldemHand) (i : Nat) : Prop where
  pending : h.idAt i ∈ h.pending
  payable : ¬h.PotOverflows

/-- The seat has folded, but the winner could not be paid and the turn has stayed. -/
structure HoldemHand.Stuck (h : HoldemHand) (i : Nat) : Prop where
  folded : (h.seatAt i).status = .folded
  overflows : h.PotOverflows

/-- An action leaves the stack of the actor and the pot the same together. -/
theorem HoldemHand.Acted.holdings_eq (ha : h.Acted i h₁) (hi : i < h.size) :
    (h₁.seatAt i).stack.value + h₁.wagered =
      (h.seatAt i).stack.value + h.wagered := by
  have hmem : i ∈ range h.size := mem_range.mpr hi
  have hothers : ∀ j ∈ (range h.size).erase i,
      (h₁.seatAt j).totalCommitted.value = (h.seatAt j).totalCommitted.value := by
    intro j hj
    rw [ha.others j (ne_of_mem_erase hj)]
  have hsum := sum_congr rfl hothers
  have hchips := ha.actor.chips
  unfold wagered total
  rw [ha.size, ← add_sum_erase _ _ hmem, ← add_sum_erase _ _ hmem]
  dsimp only
  omega

/-- Any action but a fold leaves a hand that can go on. -/
theorem HoldemHand.Asked.payable_of_effect (hq : h.Asked i) (hp : h.InPlay) (hi : i < h.size)
    (he : ActionEffect h i a h₁) (hne : a ≠ .fold) : ¬h₁.PotOverflows := by
  have hactive := hp.active hi hq.pending
  have hsame := he.contenderSeats hi hactive
  rw [if_neg hne] at hsame
  rintro ⟨w, hw, hover⟩
  rw [hsame] at hw
  have hiw : i = w := by
    have hmem : i ∈ h.contenderSeats := mem_contenderSeats.mpr ⟨hi, by simp [hactive]⟩
    rwa [hw, mem_singleton] at hmem
  subst hiw
  rw [(he.acted hi).holdings_eq hi] at hover
  exact hq.payable ⟨i, hw, hover⟩

/-- A hand that is started can pay whoever is alone at the table. -/
theorem start_payable (hs : start level seats dealer = .ok h) : ¬h.PotOverflows := by
  rintro ⟨w, hw, hover⟩
  have hp := (start_opened hs).inPlay
  rw [start_contenderSeats hs] at hw
  have hone : h.size = 1 := by rw [← card_range h.size, hw, card_singleton]
  have hwlt : w < h.size := mem_range.mp (hw ▸ mem_singleton_self w)
  have hfunded := (hp.funded w hwlt).chips
  have hstart := (h.seatAt w).startingStack.lt
  have htotal : h.wagered = (h.seatAt w).totalCommitted.value := by
    unfold wagered total
    rw [hw, sum_singleton]
  omega

/-- After a call the turn is with a player who has to act, or stays with one who has
folded. -/
theorem ActResult.turn {r : Result HoldemError HoldemHand ActionOutcome}
    (hresult : ActResult h p a r) (hp : h.InPlay)
    (hturn : ∀ i, h.nextToAct = some i → h.Asked i ∨ h.Stuck i)
    (hs : (endState r).street.IsBetting) {j : Nat} (hnext : (endState r).nextToAct = some j) :
    (endState r).Asked j ∨ (endState r).Stuck j := by
  cases hresult with
  | refused => exact hturn j hnext
  | won => exact absurd hs (by simp [IsBetting, next?])
  | @overflown i w h₁ next actor applied winner exceeds =>
    have he := applyAction_eq_ok applied
    have hi := hp.next_lt i next
    have ha := he.acted hi
    have hover : h₁.PotOverflows := ⟨w, winner, exceeds⟩
    rw [endState_error, ha.nextToAct, next] at hnext
    obtain rfl : i = j := Option.some.inj hnext
    refine .inr ⟨?_, hover⟩
    by_contra hstays
    rcases hturn i next with hasked | hstuck
    · -- only a fold leaves a contender who cannot be paid, and the actor has folded
      have hfold : a = .fold := by
        by_contra hne
        exact hasked.payable_of_effect hp hi he hne hover
      exact hstays ((he.actor_status hi (hp.active hi hasked.pending)).mpr hfold)
    · -- the winner of before and the actor would both be left
      obtain ⟨w', hw', -⟩ := hstuck.overflows
      have hmem' : w' ∈ h.contenderSeats := hw' ▸ mem_singleton_self w'
      obtain ⟨hlt', hstatus'⟩ := mem_contenderSeats.mp hmem'
      have hne : w' ≠ i := by
        rintro rfl
        exact hstatus' hstuck.folded
      have hleft : w' ∈ h₁.contenderSeats :=
        mem_contenderSeats.mpr ⟨ha.size.symm ▸ hlt', by rw [ha.others w' hne]; exact hstatus'⟩
      have hactor : i ∈ h₁.contenderSeats :=
        mem_contenderSeats.mpr ⟨ha.size.symm ▸ hi, hstays⟩
      rw [winner, mem_singleton] at hleft hactor
      exact hne (hleft.trans hactor.symm)
  | @advanced i h₁ h' out next actor applied closed advances =>
    have hp₁ := hp.of_effect (hp.next_lt i next) (applyAction_eq_ok applied)
    cases advances with
    | @opened street _ _ htwo =>
      have hp' := hp₁.openStreet street
      have hcard := htwo.trans hp'.card_pending_le
      have hcontested : ({ h₁ with street := street } : HoldemHand).openStreet.contenderSeats.card
          ≠ 1 := by omega
      exact .inl ⟨(nextPendingFrom_eq_some hnext).2, not_potOverflows hcontested⟩
    | shown => exact absurd hs (by simp [IsBetting, next?])
    | skipped => exact absurd hs (by simp [IsBetting, next?])
  | @passed i k h₁ next actor applied next_lt asked contested =>
    rw [endState_ok] at hnext
    obtain rfl : k = j := Option.some.inj hnext
    exact .inl ⟨asked, not_potOverflows contested⟩

/-- In every betting round, under any calls. -/
theorem Called.turn (hc : Called level seats dealer h) (hs : h.street.IsBetting) {i : Nat}
    (hnext : h.nextToAct = some i) : h.Asked i ∨ h.Stuck i := by
  induction hc generalizing i with
  | start hstart =>
    obtain ⟨first, hfirst⟩ := (start_opened hstart).next
    exact .inl ⟨(nextPendingFrom_eq_some (hfirst.symm.trans hnext)).2, start_payable hstart⟩
  | @call h c hc ih =>
    have hb := hc.betting_of_call c hs
    have hp := hc.onCourse.betting hb
    cases c with
    | act p a =>
      rw [endState_perform_act] at hs hnext ⊢
      exact (hp.act_run hb p a).turn hp (fun i hi => ih hb hi) hs hnext
    | settle board holeCards =>
      rw [endState_perform_settle] at hs hnext ⊢
      rcases settleShowdown_street board holeCards h with hsame | ⟨hshow, -⟩
      · rw [hsame] at hnext ⊢
        exact ih hb hnext
      · rw [hshow] at hb
        exact absurd hb (by decide)

/-! ## The public numbers -/

/-- The most that a seat can raise to. -/
def HoldemHand.maximumRaiseTo (h : HoldemHand) (i : Nat) : Nat :=
  (h.seatAt i).streetCommitted.value + (h.seatAt i).stack.value

/-- What the engine accepts of seat `i` can be read off the bet, the chips of the seat
and the last full raise, and so every raise between the limits is accepted. -/
structure HoldemHand.ExactBounds (h : HoldemHand) (i : Nat) (minimum : Chips) : Prop where
  check : h.Accepts i .check ↔ h.currentBet.value - (h.seatAt i).streetCommitted.value = 0
  call : h.Accepts i .call ↔ 0 < h.currentBet.value - (h.seatAt i).streetCommitted.value
  raise : ∀ x : Chips, h.Accepts i (.raiseTo x) ↔
    h.currentBet.value < x.value ∧ x.value ≤ h.maximumRaiseTo i ∧
      (minimum.value ≤ x.value ∨ x.value = h.maximumRaiseTo i)
  offered : h.currentBet.value < h.maximumRaiseTo i → ∀ x : Chips,
    min minimum.value (h.maximumRaiseTo i) ≤ x.value → x.value ≤ h.maximumRaiseTo i →
      h.Accepts i (.raiseTo x)

/-- The player may raise, a raise adds something, and the blinds have not put the seat
above the bet; or the seat cannot go above the bet, and is still in the hand or behind. -/
def HoldemHand.BoundsDecide (h : HoldemHand) (i : Nat) : Prop :=
  (h.idAt i ∈ h.raiseRights ∧ (h.seatAt i).streetCommitted.value ≤ h.currentBet.value ∧
      0 < h.lastFullRaise.value) ∨
    (h.maximumRaiseTo i ≤ h.currentBet.value ∧ ((h.seatAt i).status = .active ∨
      (h.seatAt i).streetCommitted.value < h.currentBet.value))

instance HoldemHand.BoundsDecide.instDecidable (h : HoldemHand) (i : Nat) :
    Decidable (h.BoundsDecide i) :=
  inferInstanceAs (Decidable (_ ∨ _))

section Asked

variable (hq : h.Asked i) (hp : h.InPlay) (hs : h.street.IsBetting) (hnext : h.nextToAct = some i)

include hq hp hs hnext

/-- Where the player has to act, what can be applied is accepted. -/
theorem HoldemHand.Asked.accepts_iff (hne : a ≠ .fold) :
    h.Accepts i a ↔ ∃ h₁, (applyAction i (h.idAt i) a).run h = .ok () h₁ := by
  rw [hp.act_ok_iff hs hnext]
  constructor
  · rintro ⟨h₁, happly, -⟩
    exact ⟨h₁, happly⟩
  · rintro ⟨h₁, happly⟩
    exact ⟨h₁, happly, hq.payable_of_effect hp (hp.next_lt i hnext) (applyAction_eq_ok happly) hne⟩

theorem HoldemHand.Asked.raise_accepted_iff (hr : h.RaiseFloor) {minimum : Chips}
    (hminimum : h.minimumRaiseTo = some minimum) (x : Chips) :
    h.Accepts i (.raiseTo x) ↔ h.idAt i ∈ h.raiseRights ∧ h.currentBet.value < x.value ∧
      (h.seatAt i).streetCommitted.value < x.value ∧ x.value ≤ h.maximumRaiseTo i ∧
      (minimum.value ≤ x.value ∨ x.value = h.maximumRaiseTo i) := by
  have happlied := (hp.funded i (hp.next_lt i hnext)).raiseTo_applied_iff x
  simp only [CanRaiseTo, hr.minimumTarget hminimum, Option.some.injEq, exists_eq_left']
    at happlied
  rw [hq.accepts_iff hp hs hnext (by simp)]
  exact happlied

theorem HoldemHand.Asked.exactBounds_iff (hr : h.RaiseFloor) {minimum : Chips}
    (hminimum : h.minimumRaiseTo = some minimum) : h.ExactBounds i minimum ↔ h.BoundsDecide i := by
  have hactive := hp.active (hp.next_lt i hnext) hq.pending
  have hraise := hq.raise_accepted_iff hp hs hnext hr hminimum
  have hsum := Chips.checkedAdd_eq_some.mp hminimum
  have hcheck : h.Accepts i .check ↔ (h.seatAt i).streetCommitted.value = h.currentBet.value := by
    rw [hq.accepts_iff hp hs hnext (by simp), check_applied_iff, Chips.ext_iff]
  have hcall : h.Accepts i .call ↔ (h.seatAt i).streetCommitted.value < h.currentBet.value := by
    rw [hq.accepts_iff hp hs hnext (by simp),
      (hp.funded i (hp.next_lt i hnext)).call_applied_iff]
  -- the seat can always go up to what it has
  have hlimit : h.maximumRaiseTo i < 2 ^ 64 := by
    have hfunded := hp.funded i (hp.next_lt i hnext)
    have := hfunded.chips
    have := hfunded.street_le
    have := (h.seatAt i).startingStack.lt
    unfold maximumRaiseTo
    omega
  have hcommitted : (h.seatAt i).streetCommitted.value ≤ h.maximumRaiseTo i := Nat.le_add_right _ _
  constructor
  · intro hexact
    have hlevel : (h.seatAt i).streetCommitted.value ≤ h.currentBet.value := by
      have := hcheck.symm.trans hexact.check
      omega
    by_cases habove : h.currentBet.value < h.maximumRaiseTo i
    · -- all-in is accepted, and so is the smallest raise on offer
      have hall := (hraise ⟨h.maximumRaiseTo i, hlimit⟩).mp
        ((hexact.raise ⟨h.maximumRaiseTo i, hlimit⟩).mpr ⟨habove, le_rfl, .inr rfl⟩)
      have hleast : min minimum.value (h.maximumRaiseTo i) < 2 ^ 64 := by omega
      have hfirst := (hraise ⟨_, hleast⟩).mp (hexact.offered habove ⟨_, hleast⟩ le_rfl (by simp))
      refine .inl ⟨hall.1, hlevel, ?_⟩
      have : h.currentBet.value < min minimum.value (h.maximumRaiseTo i) := hfirst.2.1
      omega
    · exact .inr ⟨by omega, .inl hactive⟩
  · rintro (⟨hright, hlevel, hpositive⟩ | ⟨hbelow, -⟩)
    · refine ⟨hcheck.trans (by omega), hcall.trans (by omega), fun x => ?_,
        fun habove x hleast hmost => ?_⟩
      · rw [hraise x]
        constructor
        · rintro ⟨-, hx, -, hmost, hsize⟩
          exact ⟨hx, hmost, hsize⟩
        · rintro ⟨hx, hmost, hsize⟩
          exact ⟨hright, hx, by omega, hmost, hsize⟩
      · exact (hraise x).mpr ⟨hright, by omega, by omega, hmost, by omega⟩
    · refine ⟨hcheck.trans (by omega), hcall.trans (by omega), fun x => ?_,
        fun habove => by omega⟩
      rw [hraise x]
      exact iff_of_false (fun hall => by omega) fun hall => by omega

end Asked

section Stuck

variable (hk : h.Stuck i) (hp : h.InPlay) (hs : h.street.IsBetting) (hnext : h.nextToAct = some i)
  (hr : h.raiseRights ⊆ h.pending)

include hk hp hs hnext

theorem HoldemHand.Stuck.check_refused : ¬h.Accepts i .check := by
  rw [hp.act_ok_iff hs hnext]
  rintro ⟨h₁, happly, hpaid⟩
  cases applyAction_eq_ok happly with
  | check => exact hpaid hk.overflows

/-- A folded seat can only call with all its chips: that brings it back into the hand. -/
theorem HoldemHand.Stuck.call_accepted_iff :
    h.Accepts i .call ↔ (h.seatAt i).streetCommitted.value < h.currentBet.value ∧
      h.maximumRaiseTo i ≤ h.currentBet.value := by
  have hi := hp.next_lt i hnext
  obtain ⟨w, hw, hover⟩ := hk.overflows
  obtain ⟨hwlt, hwstatus⟩ := mem_contenderSeats.mp (hw ▸ mem_singleton_self w)
  have hne : w ≠ i := by
    rintro rfl
    exact hwstatus hk.folded
  rw [hp.act_ok_iff hs hnext]
  unfold maximumRaiseTo
  constructor
  · rintro ⟨h₁, happly, hpaid⟩
    have he := applyAction_eq_ok happly
    have ha := he.acted hi
    cases he with
    | @call s' behind pays =>
      refine ⟨behind, ?_⟩
      by_contra hrich
      -- the seat keeps chips and stays folded, and the pot has only grown
      have hstack : s'.stack ≠ Chips.zero := by
        intro hzero
        have := pays.stack
        rw [hzero, Chips.zero_value] at this
        omega
      have hstatus := pays.status
      rw [if_neg hstack, hk.folded] at hstatus
      refine hpaid ⟨w, ?_, ?_⟩
      · ext j
        rw [← hw, mem_contenderSeats, mem_contenderSeats, ha.size]
        refine and_congr_right fun _ => ?_
        by_cases hji : j = i
        · subst hji
          have hseat : (((h.updateSeat j fun _ => s').consumeAction (h.idAt j)).seatAt j) = s' :=
            seatAt_updateSeat_self hi
          rw [hseat, hstatus, hk.folded]
        · rw [ha.others j hji]
      · have hgrown := ha.committed_le
        rw [ha.others w hne]
        omega
  · rintro ⟨hbehind, hpoor⟩
    obtain ⟨h₁, happly⟩ := (hp.funded i hi).call_applied_iff.mpr hbehind
    refine ⟨h₁, happly, ?_⟩
    have he := applyAction_eq_ok happly
    have ha := he.acted hi
    have hback : (h₁.seatAt i).status ≠ .folded := by
      cases he with
      | @call s' behind pays =>
        have hseat : (((h.updateSeat i fun _ => s').consumeAction (h.idAt i)).seatAt i) = s' :=
          seatAt_updateSeat_self hi
        have hzero : s'.stack = Chips.zero := Chips.ext (by
          have := pays.stack
          rw [Chips.zero_value]
          omega)
        rw [hseat, pays.status, if_pos hzero]
        simp
    rintro ⟨w', hw', -⟩
    have hactor : i ∈ h₁.contenderSeats := mem_contenderSeats.mpr ⟨ha.size.symm ▸ hi, hback⟩
    have hleft : w ∈ h₁.contenderSeats :=
      mem_contenderSeats.mpr ⟨ha.size.symm ▸ hwlt, by rw [ha.others w hne]; exact hwstatus⟩
    rw [hw', mem_singleton] at hactor hleft
    exact hne (hleft.trans hactor.symm)

include hr

omit hs in
theorem HoldemHand.Stuck.not_mem_rights : h.idAt i ∉ h.raiseRights := by
  intro hright
  have hactive := hp.active (hp.next_lt i hnext) (hr hright)
  rw [hk.folded] at hactive
  cases hactive

theorem HoldemHand.Stuck.raise_refused (x : Chips) : ¬h.Accepts i (.raiseTo x) := by
  rw [hp.act_ok_iff hs hnext]
  rintro ⟨h₁, happly, -⟩
  exact hk.not_mem_rights hp hnext hr
    (((hp.funded i (hp.next_lt i hnext)).raiseTo_applied_iff x).mp ⟨h₁, happly⟩).1

theorem HoldemHand.Stuck.exactBounds_iff {minimum : Chips} :
    h.ExactBounds i minimum ↔ h.BoundsDecide i := by
  have hcheck := hk.check_refused hp hs hnext
  have hcall := hk.call_accepted_iff hp hs hnext
  have hraise := hk.raise_refused hp hs hnext hr
  have hright := hk.not_mem_rights hp hnext hr
  constructor
  · intro hexact
    have hbehind : (h.seatAt i).streetCommitted.value < h.currentBet.value := by
      have := mt hexact.check.mpr hcheck
      omega
    have hpoor := (hcall.mp (hexact.call.mpr (by omega))).2
    exact .inr ⟨hpoor, .inr hbehind⟩
  · rintro (⟨hmem, -⟩ | ⟨hpoor, hactive | hbehind⟩)
    · exact absurd hmem hright
    · rw [hk.folded] at hactive
      cases hactive
    · refine ⟨iff_of_false hcheck (by omega), ?_, fun x => ?_, fun habove => by omega⟩
      · rw [hcall]
        omega
      · exact iff_of_false (hraise x) fun hall => by omega

end Stuck

/-- In every betting round the public numbers decide what is accepted of the player on
turn exactly when the player may raise, or could not go above the bet anyway. -/
theorem Called.exactBounds_iff (hc : Called level seats dealer h) (hs : h.street.IsBetting)
    (hnext : h.nextToAct = some i) {minimum : Chips} (hminimum : h.minimumRaiseTo = some minimum) :
    h.ExactBounds i minimum ↔ h.BoundsDecide i := by
  have hp := hc.onCourse.betting hs
  obtain ⟨last, hf⟩ := hc.followed
  have hr := hf.reopening hs
  rcases hc.turn hs hnext with hasked | hstuck
  · exact hasked.exactBounds_iff hp hs hnext hr.toRaiseFloor hminimum
  · exact hstuck.exactBounds_iff hp hs hnext hr.rights

end TokenHoldem
