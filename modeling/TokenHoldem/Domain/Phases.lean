import TokenHoldem.Domain.Calls

/-!
# The phases of a hand

Where the hands of `Reach` can be, at any level:

* `Round`: in a betting round, maybe with nobody to act;
* `AtShowdown`: at the showdown;
* `Settled`: complete, with nobody to act;
* `OnTurn`: complete, and yet on turn. `finish_uncontested` leaves `next_to_act`
  in place, so the last folder may act again, be put all-in by a further call and
  pass the turn on, and the pot may be paid a second time where it is empty.

`resolveTurn_ok` says how a turn ends in both phases that have one, and
`Reach.phase` follows from it.
-/

namespace TokenHoldem

open Library HoldemHand Finset EStateM

variable {h h' h₁ h₂ : HoldemHand} {i w : Nat} {p : PlayerId} {a : PlayerAction}
  {out : ActionOutcome} {settlement : HoldemSettlement}

/-! ## Hands on turn -/

/-- A seat has, in its stack and in the pot, at least what it started with. -/
structure SeatState.Solvent (s : SeatState) : Prop where
  chips : s.startingStack.value ≤ s.stack.value + s.totalCommitted.value
  street_le : s.streetCommitted.value ≤ s.totalCommitted.value

theorem SeatState.Solvent.pays {s s' : SeatState} {n : Nat} (hs : s.Solvent) (hp : s.Pays n s') :
    s'.Solvent := by
  have := hs.chips
  have := hs.street_le
  have := hp.stack
  have := hp.totalCommitted
  have := hp.streetCommitted
  refine ⟨?_, by omega⟩
  rw [hp.startingStack]
  omega

/-- What a hand with a player on turn keeps, complete or not. -/
structure HoldemHand.Solvent (h : HoldemHand) : Prop extends h.InTurn where
  seat : ∀ j < h.size, (h.seatAt j).Solvent

theorem HoldemHand.Solvent.of_effect (hs : h.Solvent) (hi : i < h.size)
    (he : ActionEffect h i a h₁) : h₁.Solvent where
  toInTurn := hs.toInTurn.of_effect hi he
  seat := he.forall_seat hi (fun hs => ⟨hs.chips, hs.street_le⟩) (fun hs => hs.pays) hs.seat

/-- Stacks and commitments hold more than the buy-ins: a pot was paid out and is
still committed. -/
def HoldemHand.Surplus (h : HoldemHand) : Prop :=
  h.total (·.startingStack.value) < h.total (·.stack.value) + h.wagered

theorem HoldemHand.Acted.surplus_iff (ha : h.Acted i h₁) : h₁.Surplus ↔ h.Surplus := by
  have hchips := ha.chips_eq
  rw [total_add, total_add] at hchips
  unfold Surplus
  rw [ha.sameRoster.total_startingStack, hchips]

/-- Without a surplus every seat holds exactly what it started with. -/
theorem HoldemHand.Solvent.funded (hs : h.Solvent) (hno : ¬h.Surplus) :
    ∀ j < h.size, (h.seatAt j).Funded := by
  have hle : ∀ j ∈ range h.size, (h.seatAt j).startingStack.value ≤
      (h.seatAt j).stack.value + (h.seatAt j).totalCommitted.value :=
    fun j hj => (hs.seat j (mem_range.mp hj)).chips
  unfold Surplus at hno
  rw [← total_add] at hno
  have heq := (sum_eq_sum_iff_of_le hle).mp (le_antisymm (sum_le_sum hle) (not_lt.mp hno))
  exact fun j hj => ⟨(heq j (mem_range.mpr hj)).symm, (hs.seat j hj).street_le⟩

/-- The check of `build_settlement` after the pot has gone to one seat. -/
theorem totalDelta_of_pot_iff (hs : h.Solvent) (hw : w < h.size)
    (hc : h.Credits (fun j => if j = w then h.wagered else 0) h₂) :
    ({ h₂ with street := .complete } : HoldemHand).totalDelta = 0 ↔ ¬h.Surplus := by
  refine ⟨fun hzero hsurplus => ?_, fun hno => totalDelta_of_pot (hs.funded hno) hw hc⟩
  rw [totalDelta_eq_zero_iff] at hzero
  change h₂.total (·.stack.value) = h₂.total (·.startingStack.value) at hzero
  rw [total_stack_of_pot hw hc, hc.sameRoster.total_startingStack] at hzero
  exact hsurplus.ne' hzero

/-! ## How a turn ends -/

/-- How a turn ends well: the last contender is paid, the betting round ends, or the
turn is passed on. -/
inductive Resolved (h : HoldemHand) : ActionOutcome → HoldemHand → Prop
  | won {w : Nat} {h₂ : HoldemHand} (winner : h.contenderSeats = {w})
      (funded : ∀ j < h.size, (h.seatAt j).Funded)
      (credits : h.Credits (fun j => if j = w then h.wagered else 0) h₂) :
      Resolved h (.handComplete ⟨h₂.playerSettlements⟩) { h₂ with street := .complete }
  | advanced {out : ActionOutcome} {h' : HoldemHand} (betting : h.street.IsBetting)
      (advances : Advances h h') (contested : h.contenderSeats.card ≠ 1)
      (open_ : ∀ settlement, out ≠ .handComplete settlement) : Resolved h out h'
  | passed {j : Nat} (lt : j < h.size) (asked : h.idAt j ∈ h.pending)
      (contested : h.contenderSeats.card ≠ 1) :
      Resolved h (.waitingFor (h.idAt j)) { h with nextToAct := some j }

theorem Resolved.sameRoster (hr : Resolved h out h') : h.SameRoster h' := by
  cases hr with
  | won _ _ hc => exact hc.sameRoster.trans (.of_seats rfl)
  | advanced _ hadv => exact hadv.sameChips.sameRoster
  | passed => exact .of_seats rfl

theorem resolveTurn_ok (hs : h.Solvent) (hrun : (resolveTurn i).run h = .ok out h') :
    Resolved h out h' := by
  by_cases hcard : h.contenderSeats.card = 1
  · obtain ⟨w, hw⟩ := card_eq_one.mp hcard
    rw [resolveTurn_of_singleton hw] at hrun
    obtain ⟨settlement, _, hfinish, hout⟩ := run_bind_eq_ok_iff.mp hrun
    obtain ⟨_, _, hpay, hbuild⟩ := run_bind_eq_ok_iff.mp hfinish
    obtain ⟨rfl, rfl, hzero⟩ := totalDelta_of_buildSettlement hbuild
    cases hout
    rcases payUncontested_run hs.distinct (winner_lt hw) with ⟨h₂, hc, hok⟩ | ⟨herr, -⟩
    · rw [hok] at hpay
      cases hpay
      have hno := (totalDelta_of_pot_iff hs (winner_lt hw) hc).mp hzero
      have hwon := Resolved.won hw (hs.funded hno) hc
      exact hwon
    · rw [herr] at hpay
      cases hpay
  · rw [resolveTurn_of_card_ne_one hcard] at hrun
    split at hrun
    · by_cases hb : h.street.IsBetting
      · obtain ⟨_, _, hadvance, hadv, hopen⟩ := advanceStreet_run hb
        rw [hadvance] at hrun
        cases hrun
        exact .advanced hb hadv hcard hopen
      · rw [advanceStreet_of_not_betting hb] at hrun
        cases hrun
    · split at hrun
      · rename_i j hj
        obtain ⟨hjlt, hjp⟩ := nextPendingFrom_eq_some hj
        cases hrun
        exact .passed hjlt hjp hcard
      · cases hrun

/-! ## The phases -/

/-- Two players are in the hand, or the table has a single seat. -/
def HoldemHand.Contested (h : HoldemHand) : Prop := 2 ≤ h.contenderSeats.card ∨ h.size ≤ 1

theorem HoldemHand.SameChips.contested (hs : h.SameChips h') (hc : h.Contested) : h'.Contested := by
  unfold Contested
  rw [hs.contenderSeats_eq, hs.size]
  exact hc

/-- A betting round. -/
structure HoldemHand.Round (h : HoldemHand) : Prop extends h.InPlay where
  street : h.street.IsBetting
  asked : ∀ i, h.nextToAct = some i → h.idAt i ∈ h.pending
  contested : h.Contested

structure HoldemHand.AtShowdown (h : HoldemHand) : Prop where
  street : h.street = .showdown
  next : h.nextToAct = none
  distinct : h.DistinctIds
  funded : ∀ j < h.size, (h.seatAt j).Funded
  marked : ∀ j < h.size, (h.seatAt j).Marked
  contested : h.Contested

/-- A hand after its showdown. -/
structure HoldemHand.Settled (h : HoldemHand) : Prop where
  street : h.street = .complete
  next : h.nextToAct = none

/-- A completed hand with seat `i` still on turn. Either the seat has nothing left to
do, because its action left one contender who was paid, or it was asked. -/
structure HoldemHand.OnTurn (h : HoldemHand) (i : Nat) : Prop extends h.Solvent where
  street : h.street = .complete
  next : h.nextToAct = some i
  stacks_le : h.total (·.stack.value) ≤ h.total (·.startingStack.value)
  turn : h.idAt i ∈ h.pending ∨ h.idAt i ∉ h.pending ∧ ∃ w, h.contenderSeats = {w} ∧
    ∀ j < h.size, j ≠ w → (h.seatAt j).Funded

/-- Where a reachable hand can be. -/
inductive HoldemHand.Phase (h : HoldemHand) : Prop
  | round (hr : h.Round)
  | showdown (hs : h.AtShowdown)
  | settled (hs : h.Settled)
  | onTurn {i : Nat} (ho : h.OnTurn i)

theorem HoldemHand.Round.active (hr : h.Round) (hnext : h.nextToAct = some i) :
    (h.seatAt i).status = .active :=
  hr.toInTurn.active (hr.next_lt i hnext) (hr.asked i hnext)

theorem HoldemHand.Round.solvent (hr : h.Round) : h.Solvent :=
  ⟨hr.toInTurn, fun j hj => ⟨(hr.funded j hj).chips.ge, (hr.funded j hj).street_le⟩⟩

theorem HoldemHand.Phase.solvent (hph : h.Phase) (hnext : h.nextToAct = some i) : h.Solvent := by
  cases hph with
  | round hr => exact hr.solvent
  | showdown hs => simp [hs.next] at hnext
  | settled hs => simp [hs.next] at hnext
  | onTurn ho => exact ho.toSolvent

/-- One successful `act`, from any phase: the player on turn acts, and the turn ends. -/
theorem HoldemHand.Phase.act_resolved (hph : h.Phase) (hrun : (act p a).run h = .ok out h') :
    ∃ i h₁, h.nextToAct = some i ∧ i < h.size ∧ ActionEffect h i a h₁ ∧ h₁.Solvent ∧
      Resolved h₁ out h' := by
  rcases hnext : h.nextToAct with _ | i
  · rw [act_of_next_eq_none hnext] at hrun
    cases hrun
  have hs := hph.solvent hnext
  obtain ⟨-, h₁, he, hresolve⟩ := act_eq_ok hnext hrun
  have hs₁ := hs.of_effect (hs.next_lt i hnext) he
  exact ⟨i, h₁, rfl, hs.next_lt i hnext, he, hs₁, resolveTurn_ok hs₁ hresolve⟩

/-! ## Paying the last contender -/

/-- Awards do not touch the turn order. -/
theorem HoldemHand.InTurn.of_credits {g : Nat → Nat} (ht : h.InTurn) (hc : h.Credits g h') :
    ({ h' with street := .complete } : HoldemHand).InTurn where
  dealer_lt := by
    change h'.dealerIndex < h'.size
    rw [hc.dealerIndex, hc.size]
    exact ht.dealer_lt
  distinct := hc.distinct ht.distinct
  pending_active := by
    intro q hq
    change q ∈ h'.pending at hq
    rw [hc.pending] at hq
    obtain ⟨j, hj, hid, hactive⟩ := ht.pending_active q hq
    exact ⟨j, hc.size.symm ▸ hj, (hc.idAt hj).trans hid, (hc.status hj).trans hactive⟩
  rights := by
    change h'.raiseRights ⊆ h'.pending
    rw [hc.raiseRights, hc.pending]
    exact ht.rights
  next_lt := by
    intro k hk
    change h'.nextToAct = some k at hk
    change k < h'.size
    rw [hc.nextToAct] at hk
    rw [hc.size]
    exact ht.next_lt k hk

/-- Once the last contender is paid the seat that acted is still on turn. -/
theorem HoldemHand.InTurn.onTurn_of_credits (ht : h.InTurn) (hnext : h.nextToAct = some i)
    (hout : h.idAt i ∉ h.pending) (hf : ∀ j < h.size, (h.seatAt j).Funded)
    (hw : h.contenderSeats = {w})
    (hc : h.Credits (fun j => if j = w then h.wagered else 0) h₂) :
    ({ h₂ with street := .complete } : HoldemHand).OnTurn i where
  toInTurn := ht.of_credits hc
  seat := by
    intro j hj
    have hj : j < h.size := hc.size ▸ hj
    have hstack := hc.stack j hj
    have hchips := (hf j hj).chips
    change (h₂.seatAt j).Solvent
    rw [hc.seat j hj]
    exact ⟨by dsimp only; omega, (hf j hj).street_le⟩
  street := rfl
  next := hc.nextToAct.trans hnext
  stacks_le := by
    change h₂.total (·.stack.value) ≤ h₂.total (·.startingStack.value)
    rw [total_stack_of_pot (winner_lt hw) hc, hc.sameRoster.total_startingStack, total_of_funded hf]
  turn := by
    refine .inr ⟨?_, w, hc.contenderSeats.trans hw, fun j hj hjw => ?_⟩
    · change h₂.idAt i ∉ h₂.pending
      rw [hc.idAt (ht.next_lt i hnext), hc.pending]
      exact hout
    · have hj : j < h.size := hc.size ▸ hj
      have hstack : (h₂.seatAt j).stack = (h.seatAt j).stack :=
        Chips.ext (by rw [hc.stack j hj]; simp [hjw])
      change (h₂.seatAt j).Funded
      rw [hc.seat j hj, hstack]
      exact hf j hj

/-! ## One call -/

/-- While two contenders are left after an action of a round, the hand is contested. -/
theorem HoldemHand.Round.contested_of_effect (hr : h.Round) (hnext : h.nextToAct = some i)
    (he : ActionEffect h i a h₁) (hcard : h₁.contenderSeats.card ≠ 1) : h₁.Contested := by
  have hi := hr.next_lt i hnext
  refine hr.contested.imp (fun htwo => ?_) fun hone => (he.acted hi).size.trans_le hone
  have hseats := he.contenderSeats hi (hr.active hnext)
  have hpred := pred_card_le_card_erase (s := h.contenderSeats) (a := i)
  split at hseats
  · rw [hseats] at hcard ⊢
    omega
  · rw [hseats]
    exact htwo

theorem Advances.phase (hadv : Advances h h') (hp : h.InPlay) (hc : h.Contested) : h'.Phase := by
  have hsame := hadv.sameChips
  have hshowdown : h'.street = .showdown → h'.nextToAct = none → h'.Phase := fun hs hn =>
    .showdown ⟨hs, hn, hsame.sameRoster.distinct hp.distinct, hsame.funded hp.funded,
      hsame.marked hp.marked, hsame.contested hc⟩
  cases hadv with
  | opened hs _ _ =>
    exact .round ⟨hp.openStreet _, hs, fun _ hk => (nextPendingFrom_eq_some hk).2,
      hsame.contested hc⟩
  | shown => exact hshowdown rfl rfl
  | skipped => exact hshowdown rfl rfl

/-- On a completed hand the turn is passed on like in a round. -/
theorem HoldemHand.OnTurn.passed (ho : h.OnTurn i) (he : ActionEffect h i a h₁) {j : Nat}
    (hlt : j < h₁.size) (hasked : h₁.idAt j ∈ h₁.pending) :
    ({ h₁ with nextToAct := some j } : HoldemHand).OnTurn j := by
  have hi := ho.next_lt i ho.next
  have hs₁ := ho.toSolvent.of_effect hi he
  have ha := he.acted hi
  refine ⟨⟨hs₁.toInTurn.with_next hlt, hs₁.seat⟩, ha.street.trans ho.street, rfl, ?_, .inl hasked⟩
  have hchips := ha.chips_eq
  have hle := ha.committed_le
  have hstacks := ho.stacks_le
  rw [total_add, total_add] at hchips
  unfold wagered at hle
  change h₁.total (·.stack.value) ≤ h₁.total (·.startingStack.value)
  rw [ha.sameRoster.total_startingStack]
  omega

theorem HoldemHand.Phase.act_ok (hph : h.Phase) (hrun : (act p a).run h = .ok out h') :
    h'.Phase := by
  obtain ⟨i, h₁, hnext, hi, he, hs₁, hresolved⟩ := hph.act_resolved hrun
  have ha := he.acted hi
  cases hresolved with
  | won hw hf hc =>
    exact .onTurn (hs₁.toInTurn.onTurn_of_credits (ha.nextToAct.trans hnext)
      ((hph.solvent hnext).toInTurn.actor_out hi he) hf hw hc)
  | advanced hb hadv hcard =>
    cases hph with
    | round hr =>
      exact hadv.phase (hr.toInPlay.of_effect hi he) (hr.contested_of_effect hnext he hcard)
    | showdown hs => simp [hs.next] at hnext
    | settled hs => simp [hs.next] at hnext
    | onTurn ho => exact absurd (ha.street.trans ho.street ▸ hb) (by decide)
  | passed hlt hasked hcard =>
    cases hph with
    | round hr =>
      have hcontested := hr.contested_of_effect hnext he hcard
      have hstreet : h₁.street.IsBetting := ha.street.symm ▸ hr.street
      exact .round ⟨(hr.toInPlay.of_effect hi he).with_next hlt, hstreet,
        by rintro _ ⟨⟩; exact hasked, hcontested⟩
    | showdown hs => simp [hs.next] at hnext
    | settled hs => simp [hs.next] at hnext
    | onTurn ho =>
      obtain rfl := Option.some.inj (ho.next.symm.trans hnext)
      exact .onTurn (ho.passed he hlt hasked)

/-- How a hand is completed by an action: it leaves one contender, who is paid the
pot. This may happen on a completed hand again. -/
theorem HoldemHand.Phase.act_handComplete (hph : h.Phase)
    (hrun : (act p a).run h = .ok (.handComplete settlement) h') :
    ∃ (w : Nat) (h₁ h₂ : HoldemHand), h₁.contenderSeats = {w} ∧
      (∀ j < h₁.size, (h₁.seatAt j).Funded) ∧
      h₁.Credits (fun j => if j = w then h₁.wagered else 0) h₂ ∧
      h' = { h₂ with street := .complete } ∧ settlement = ⟨h₂.playerSettlements⟩ := by
  obtain ⟨i, h₁, -, -, -, -, hresolved⟩ := hph.act_resolved hrun
  cases hresolved with
  | won hw hf hc => exact ⟨_, h₁, _, hw, hf, hc, rfl, rfl⟩
  | advanced _ _ _ hopen => exact absurd rfl (hopen settlement)

/-- Only a hand at its showdown can be paid by layers. -/
theorem HoldemHand.Phase.atShowdown (hph : h.Phase) (hs : h.street = .showdown) : h.AtShowdown := by
  cases hph with
  | round hr => exact absurd (hs ▸ hr.street) (by decide)
  | showdown hs => exact hs
  | settled hs' => exact absurd (hs.symm.trans hs'.street) (by decide)
  | onTurn ho => exact absurd (hs.symm.trans ho.street) (by decide)

section Showdown

variable {board : Board} {holeCards : HoleCards}

theorem HoldemHand.AtShowdown.payShowdown_run (hs : h.AtShowdown)
    (hcards : ShowsCards h board holeCards) :
    (∃ g h₁, ShowdownPaid h g h₁ ∧ h.LoneExcess ∧
      (payShowdown board holeCards).run h = .ok () { h₁ with street := .complete }) ∨
    (∃ h', (payShowdown board holeCards).run h = .error .chipOverflow h' ∧
      2 ^ 64 ≤ h.total (·.startingStack.value)) ∨
    (∃ h', (payShowdown board holeCards).run h = .error .stateInvariant h' ∧ ¬h.LoneExcess) :=
  TokenHoldem.payShowdown_run hs.distinct hs.funded
    (hs.contested.imp_left fun htwo => card_pos.mp (by omega)) hs.street hcards

theorem HoldemHand.Phase.payShowdown_ok (hph : h.Phase)
    (hrun : (payShowdown board holeCards).run h = .ok () h') :
    h.AtShowdown ∧ ∃ g h₁, ShowdownPaid h g h₁ ∧ h' = { h₁ with street := .complete } := by
  obtain ⟨hstreet, hcards⟩ := showsCards_of_ok hrun
  have hs := hph.atShowdown hstreet
  refine ⟨hs, ?_⟩
  rcases hs.payShowdown_run hcards with ⟨g, h₁, hpaid, -, hok⟩ | ⟨_, herr, -⟩ | ⟨_, herr, -⟩
  · rw [hok] at hrun
    cases hrun
    exact ⟨g, h₁, hpaid, rfl⟩
  · rw [herr] at hrun
    cases hrun
  · rw [herr] at hrun
    cases hrun

/-- A successful showdown pays the pot and settles the hand. -/
theorem HoldemHand.Phase.settle_ok (hph : h.Phase)
    (hrun : (settleShowdown board holeCards).run h = .ok settlement h') :
    h.AtShowdown ∧ ∃ g h₁, ShowdownPaid h g h₁ ∧ h' = { h₁ with street := .complete } ∧
      settlement = ⟨h₁.playerSettlements⟩ := by
  obtain ⟨_, h₂, hpay, hbuild⟩ := run_bind_eq_ok_iff.mp hrun
  obtain ⟨hs, g, h₁, hpaid, rfl⟩ := hph.payShowdown_ok hpay
  obtain ⟨rfl, rfl, -⟩ := totalDelta_of_buildSettlement hbuild
  exact ⟨hs, g, h₁, hpaid, rfl, rfl⟩

end Showdown

/-! ## Every reachable hand -/

variable {level : StakeLevel} {seats : List (PlayerId × Chips)} {dealer : Nat}

/-- A hand opens as a betting round in which nobody has folded. -/
theorem round_of_start (hs : start level seats dealer = .ok h) : h.Round where
  toInPlay := (start_opened hs).inPlay
  street := (start_opened hs).street ▸ by decide
  asked := by
    obtain ⟨first, hfirst⟩ := (start_opened hs).next
    intro i hi
    rw [hfirst] at hi
    exact (nextPendingFrom_eq_some hi).2
  contested := by
    unfold Contested
    rw [start_contenderSeats hs, card_range]
    omega

/-- Every reachable hand is in one of the phases. -/
theorem Reach.phase (hr : Reach level seats dealer h) : h.Phase := by
  induction hr with
  | start hs => exact .round (round_of_start hs)
  | act _ hrun ih => exact ih.act_ok hrun
  | settle _ hrun ih =>
    obtain ⟨hs, g, h₁, hpaid, rfl, -⟩ := ih.settle_ok hrun
    exact .settled ⟨rfl, hpaid.credits.nextToAct.trans hs.next⟩

theorem Reach.total_startingStack (hr : Reach level seats dealer h) :
    h.total (·.startingStack.value) = (seats.map (·.2.value)).sum := by
  rw [← sum_roster_eq, hr.called.seatedAt.roster]

end TokenHoldem
