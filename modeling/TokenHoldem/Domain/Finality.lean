import TokenHoldem.Domain.Outcomes

/-!
# Completed hands

`finish_uncontested` sets the street to `Complete` but leaves `next_to_act`
pointing at the player who folded last, and `act` is gated by `next_to_act`
alone. The two main theorems say exactly what follows.

* `conservesChips_iff` — chips are conserved and every settlement balances; the
  `total_delta != 0` branch of `build_settlement` is reached exactly by calls on
  a completed hand that is still on turn and whose pot has been paid.
* `final_iff` — a completed hand refuses every further call unchanged exactly
  when nobody is on turn, or when paying the pot once more would overflow.
-/

namespace TokenHoldem

open Library HoldemHand Finset EStateM

variable {h h' h₁ h₂ : HoldemHand} {i w : Nat} {a : PlayerAction} {level : StakeLevel}
  {seats : List (PlayerId × Chips)} {dealer : Nat}

/-! ## Paying the last contender -/

/-- `build_settlement` is entered in `h₂` by some call on `h`: by an action that
leaves one contender, or by a showdown. -/
inductive SettlesIn (h : HoldemHand) : HoldemHand → Prop
  | act {i : Nat} {a : PlayerAction} {winner : PlayerId} {h₁ h₂ : HoldemHand} :
      h.nextToAct = some i → (applyAction i (h.idAt i) a).run h = .ok () h₁ →
      h₁.remainingContenders = [winner] → (payUncontested winner).run h₁ = .ok () h₂ →
      SettlesIn h h₂
  | showdown {board : Board} {holeCards : HoleCards} {h₂ : HoldemHand} :
      (payShowdown board holeCards).run h = .ok () h₂ → SettlesIn h h₂

theorem contenderSeats_of_remainingContenders {winner : PlayerId}
    (hw : h.remainingContenders = [winner]) :
    ∃ w < h.size, h.contenderSeats = {w} ∧ h.idAt w = winner := by
  have hcard : h.contenderSeats.card = 1 := by rw [← length_remainingContenders, hw]; rfl
  obtain ⟨w, hseats⟩ := card_eq_one.mp hcard
  refine ⟨w, winner_lt hseats, hseats, ?_⟩
  simpa [hw] using (remainingContenders_of_singleton hseats).symm

/-! ## Conservation of chips -/

/-- A settlement of the given roster that moves chips and neither makes nor loses any. -/
structure HoldemSettlement.Balances (settlement : HoldemSettlement)
    (seats : List (PlayerId × Chips)) : Prop where
  roster : settlement.players.map (fun r => (r.playerId, r.startingStack)) = seats
  ending : (settlement.players.map (·.endingStack.value)).sum =
    (settlement.players.map (·.startingStack.value)).sum
  delta : ∀ r ∈ settlement.players, r.delta = (r.endingStack.value : Int) - r.startingStack.value
  zero : (settlement.players.map (·.delta)).sum = 0

/-- The accounting of a hand: the chips of every seat until it is complete, and
balanced settlements. The last field is about the check inside `build_settlement`. -/
structure ConservesChips (seats : List (PlayerId × Chips)) (h : HoldemHand) : Prop where
  accounts : h.street ≠ .complete → ∀ s ∈ h.seats,
    s.Funded ∧ (s.status ≠ .folded → (s.status = .allIn ↔ s.stack = Chips.zero))
  act : ∀ p a settlement h', (act p a).run h = .ok (.handComplete settlement) h' →
    settlement.Balances seats
  showdown : ∀ board holeCards settlement h',
    (settleShowdown board holeCards).run h = .ok settlement h' → settlement.Balances seats
  check : ∀ h₂, SettlesIn h h₂ → h₂.totalDelta = 0

/-- An active seat of a hand that is not complete was started without chips: the
level allows an empty buy-in, and a seat that pays no blind is not marked all-in. -/
def HoldemHand.ActiveWithoutChips (h : HoldemHand) : Prop :=
  h.street ≠ .complete ∧ ∃ s ∈ h.seats, s.status = .active ∧ s.startingStack = Chips.zero

/-- The pot of a completed hand has been paid, and an action of the player on turn
leaves one contender, whose stack can hold it once more. -/
def HoldemHand.CanPayAgain (h : HoldemHand) : Prop :=
  h.street = .complete ∧ h.Surplus ∧ ∃ i a h₁ w, h.nextToAct = some i ∧
    (applyAction i (h.idAt i) a).run h = .ok () h₁ ∧ h₁.contenderSeats = {w} ∧
    (h₁.seatAt w).stack.value + h₁.wagered < 2 ^ 64

theorem playerSettlements_balances (hroster : h.roster = seats) (hzero : h.totalDelta = 0) :
    HoldemSettlement.Balances ⟨h.playerSettlements⟩ seats where
  roster := by
    rw [← hroster, playerSettlements, List.map_map]
    rfl
  ending := by
    rw [totalDelta_eq_zero_iff] at hzero
    simpa only [playerSettlements, List.map_map, Function.comp_def, sum_seats_eq_total] using hzero
  delta := by
    intro r hr
    obtain ⟨s, -, rfl⟩ := List.mem_map.mp hr
    rfl
  zero := hzero

/-- In a betting round the seats hold what they started with. -/
theorem HoldemHand.Phase.complete_of_surplus (hph : h.Phase) (hnext : h.nextToAct = some i)
    (hs : h.Surplus) : h.street = .complete := by
  cases hph with
  | round hr => exact absurd (total_of_funded hr.funded).le (not_le.mpr hs)
  | showdown hs => simp [hs.next] at hnext
  | settled hs => exact hs.street
  | onTurn ho => exact ho.street

/-- The check of `build_settlement` fails exactly for calls on a completed hand
that can be paid again. -/
theorem HoldemHand.Phase.check_iff (hph : h.Phase) :
    (∀ h₂, SettlesIn h h₂ → h₂.totalDelta = 0) ↔ ¬h.CanPayAgain := by
  constructor
  · rintro hcheck ⟨-, hsurplus, i, a, h₁, w, hnext, happly, hw, hlt⟩
    have hs := hph.solvent hnext
    have he := applyAction_eq_ok happly
    have hs₁ := hs.of_effect (hs.next_lt i hnext) he
    rcases payUncontested_run hs₁.distinct (winner_lt hw) with ⟨h₂, hc, hpay⟩ | ⟨-, hover⟩
    · have hzero := hcheck _ (.act hnext happly (remainingContenders_of_singleton hw) hpay)
      exact (totalDelta_of_pot_iff hs₁ (winner_lt hw) hc).mp hzero
        ((he.acted (hs.next_lt i hnext)).surplus_iff.mpr hsurplus)
    · omega
  · intro hno h₂ hsettle
    cases hsettle with
    | @act i a winner h₁ _ hnext happly hw hpay =>
      have hs := hph.solvent hnext
      have he := applyAction_eq_ok happly
      have hs₁ := hs.of_effect (hs.next_lt i hnext) he
      obtain ⟨w, hwlt, hseats, rfl⟩ := contenderSeats_of_remainingContenders hw
      rcases payUncontested_run hs₁.distinct hwlt with ⟨h₃, hc, hok⟩ | ⟨herr, -⟩
      · rw [hok] at hpay
        cases hpay
        rw [totalDelta_of_pot_iff hs₁ hwlt hc, (he.acted (hs.next_lt i hnext)).surplus_iff]
        intro hsurplus
        exact hno ⟨hph.complete_of_surplus hnext hsurplus, hsurplus, i, a, h₁, w, hnext, happly,
          hseats, hc.pot_fits hwlt⟩
      · rw [herr] at hpay
        cases hpay
    | showdown hpay =>
      obtain ⟨hs, g, h₁, hpaid, rfl⟩ := hph.payShowdown_ok hpay
      exact hpaid.totalDelta_eq_zero hs.funded

theorem HoldemHand.Phase.funded (hph : h.Phase) (hopen : h.street ≠ .complete) :
    ∀ s ∈ h.seats, s.Funded ∧ s.Marked := by
  rw [forall_seats_iff]
  cases hph with
  | round hr => exact fun j hj => ⟨hr.funded j hj, hr.marked j hj⟩
  | showdown hs => exact fun j hj => ⟨hs.funded j hj, hs.marked j hj⟩
  | settled hs => exact absurd hs.street hopen
  | onTurn ho => exact absurd ho.street hopen

/-- The accounts of a seat, where only an active seat without chips stands out. -/
theorem SeatState.allIn_iff {s : SeatState} (hf : s.Funded) (hm : s.Marked) :
    (s.status ≠ .folded → (s.status = .allIn ↔ s.stack = Chips.zero)) ↔
      ¬(s.status = .active ∧ s.startingStack = Chips.zero) := by
  constructor
  · rintro hall ⟨hactive, hstart⟩
    have hchips := hf.chips
    rw [hstart, Chips.zero_value] at hchips
    have hin := (hall (by simp [hactive])).mpr (Chips.ext (by rw [Chips.zero_value]; omega))
    simp [hactive] at hin
  · intro hno hopen
    refine ⟨hm.allIn, fun h0 => ?_⟩
    cases hstatus : s.status with
    | allIn => rfl
    | folded => exact absurd hstatus hopen
    | active => exact absurd ⟨hstatus, hm.active hstatus h0⟩ hno

/-- Chips are conserved in every reachable hand, and the check inside
`build_settlement` never fails, exactly as long as no seat was started without
chips and no completed hand is played on. -/
theorem conservesChips_iff (hr : Reach level seats dealer h) :
    ConservesChips seats h ↔ ¬h.ActiveWithoutChips ∧ ¬h.CanPayAgain := by
  have hph := hr.phase
  constructor
  · intro hc
    refine ⟨?_, hph.check_iff.mp hc.check⟩
    rintro ⟨hopen, s, hmem, hactive⟩
    obtain ⟨hf, hm⟩ := hph.funded hopen s hmem
    exact (SeatState.allIn_iff hf hm).mp (hc.accounts hopen s hmem).2 hactive
  · rintro ⟨hactive, hno⟩
    refine ⟨fun hopen s hmem => ?_, fun p a settlement h' hrun => ?_,
      fun board holeCards settlement h' hrun => ?_, hph.check_iff.mpr hno⟩
    · obtain ⟨hf, hm⟩ := hph.funded hopen s hmem
      exact ⟨hf, (SeatState.allIn_iff hf hm).mpr fun h0 => hactive ⟨hopen, s, hmem, h0⟩⟩
    · obtain ⟨rfl, hzero⟩ := act_announces hrun
      exact playerSettlements_balances (hr.act hrun).called.seatedAt.roster hzero
    · obtain ⟨rfl, hzero⟩ := settleShowdown_balances hrun
      exact playerSettlements_balances (hr.settle hrun).called.seatedAt.roster hzero

/-- A heads-up hand that the small blind gave up. -/
theorem conservesChips_iff_heads_up :
    ∃ h, Reach oneTwoLevel headsUp 0 h ∧ h.street = .complete ∧
      (ConservesChips headsUp h ↔ ¬h.ActiveWithoutChips ∧ ¬h.CanPayAgain) := by
  obtain ⟨h, hr, hstreet⟩ := exists_reach_of_play oneTwoLevel headsUp 0
    [(player 1, .fold)] (fun h => h.street = .complete) (by decide +kernel)
  exact ⟨h, hr, hstreet, conservesChips_iff hr⟩

/-- The level of blinds 1 and 2 with an empty buy-in allowed. -/
def emptyBuyInLevel : StakeLevel := { oneTwoLevel.toStakeLevel with minimumBuyIn := Chips.zero }

/-- The small blind folds and is then allowed to fold again: the winner is paid
the blinds a second time and the check of `build_settlement` fails. And where an
empty buy-in is allowed a hand starts with an active seat that has no chips. -/
theorem second_fold_unbalances :
    (∃ h, Reach oneTwoLevel headsUp 0 h ∧ ∃ h₂, SettlesIn h h₂ ∧ h₂.totalDelta = 3) ∧
    ∃ h, Reach emptyBuyInLevel
        [(player 1, Chips.zero), (player 2, chips 100), (player 3, chips 100)] 0 h ∧
      h.street = .preflop ∧ (h.seatAt 0).status = .active ∧ (h.seatAt 0).stack = Chips.zero := by
  refine ⟨?_, exists_reach_of_play _ _ _ [] _ (by decide +kernel)⟩
  obtain ⟨h, hr, hnext, _, h₁, happly, hw, _, h₂, hpay, hdelta⟩ :=
    exists_reach_of_play oneTwoLevel headsUp 0 [(player 1, .fold)]
      (fun h => h.nextToAct = some 0 ∧
        ∃ u h₁, (applyAction 0 (h.idAt 0) .fold).run h = .ok u h₁ ∧
          h₁.remainingContenders = [player 2] ∧
          ∃ u h₂, (payUncontested (player 2)).run h₁ = .ok u h₂ ∧ h₂.totalDelta = 3)
      (by decide +kernel)
  exact ⟨h, hr, h₂, .act hnext happly hw hpay, hdelta⟩

/-! ## Finality -/

/-- Every further call is refused and changes nothing. -/
def HoldemHand.Final (h : HoldemHand) : Prop :=
  (∀ p a, ∃ e, (act p a).run h = .error e h) ∧
    ∀ board holeCards, ∃ e, (settleShowdown board holeCards).run h = .error e h

/-- Nobody is on turn, or the player on turn has folded with nothing left to
call and the pot does not fit on top of the winner's stack. -/
def HoldemHand.NoTurnLeft (h : HoldemHand) : Prop :=
  h.nextToAct = none ∨ ∃ i w, h.nextToAct = some i ∧ (h.seatAt i).status = .folded ∧
    h.currentBet.value ≤ (h.seatAt i).streetCommitted.value ∧ h.contenderSeats = {w} ∧
    2 ^ 64 ≤ (h.seatAt w).stack.value + h.wagered

theorem standing_openStreet (h : HoldemHand) : h.openStreet.standing = h.standing := by
  simp only [standing, openStreet, resetPendingForStreet, List.map_map]
  rfl

theorem payUncontested_keeps_standing (winner : PlayerId) :
    Keeps standing (payUncontested winner) := by
  have haward : ∀ pot, Keeps standing (award winner pot) := fun pot =>
    .bind .get fun _ => .bind (.orThrow _ _) fun _ => .bind (.orThrow _ _) fun _ =>
      .modify fun h => standing_updateSeat_stack h _ _
  exact .bind .get fun _ => .bind (.orThrow _ _) fun _ =>
    .bind (haward _) fun _ => .modify fun _ => rfl

theorem advanceStreet_keeps_standing : Keeps standing advanceStreet := by
  unfold advanceStreet
  generalize 5 = calls
  induction calls with
  | zero => exact .throw _
  | succ calls ih =>
    refine .bind .get fun _ => .bind (.orThrow _ _) fun _ =>
      .bind (.modify fun _ => rfl) fun _ => ?_
    refine .ite (.bind (.modify fun _ => rfl) fun _ => .pure _) ?_
    refine .bind (.modify standing_openStreet) fun _ => .bind .get fun _ => ?_
    exact .ite (.bind (.modify fun _ => rfl) fun _ => ih) (.pure _)

/-- Whatever follows an action, and whether it succeeds, commitments and statuses
are those the action left. -/
theorem resolveTurn_keeps_standing (i : Nat) : Keeps standing (resolveTurn i) := by
  refine .bind .get fun h => ?_
  split
  · refine .bind (.bind (payUncontested_keeps_standing _) fun _ => ?_) fun _ => .pure _
    exact .bind .get fun _ => .ite (.throw _) (.pure _)
  · refine .ite advanceStreet_keeps_standing (.bind (.modify fun _ => rfl) fun _ => ?_)
    exact .bind .get fun _ => .bind (.orThrow _ _) fun _ => .pure _

theorem seatAt_of_standing_eq (hs : h'.standing = h.standing) (j : Nat) :
    (h'.seatAt j).totalCommitted = (h.seatAt j).totalCommitted ∧
      (h'.seatAt j).status = (h.seatAt j).status := by
  have hat : ∀ g : HoldemHand, g.standing.getD j (Chips.zero, .active) =
      ((g.seatAt j).totalCommitted, (g.seatAt j).status) := fun g => by
    simp only [standing, seatAt, List.getD_eq_getElem?_getD, List.getElem?_map]
    cases g.seats[j]? <;> rfl
  have hj := hat h'
  rw [hs, hat h, Prod.mk.injEq] at hj
  exact ⟨hj.1.symm, hj.2.symm⟩

/-- An action that changes a commitment or a status has an effect, also when the
call fails afterwards. -/
theorem not_final_of_standing (hnext : h.nextToAct = some i)
    (happly : (applyAction i (h.idAt i) a).run h = .ok () h₁) (hne : h₁.standing ≠ h.standing) :
    ¬h.Final := by
  rintro ⟨hact, -⟩
  obtain ⟨e, herr⟩ := hact (h.idAt i) a
  rw [act_run_of_next hnext, if_pos rfl, run_bind_ok happly] at herr
  exact hne ((resolveTurn_keeps_standing i).of_error herr).symm

theorem settleShowdown_of_complete (hstreet : h.street = .complete) (board : Board)
    (holeCards : HoleCards) :
    (settleShowdown board holeCards).run h = .error .showdownNotReady h := by
  refine run_bind_error ?_
  unfold payShowdown
  rw [run_bind, run_get]
  dsimp only
  rw [if_pos (by rw [hstreet]; decide)]
  rfl

theorem consumeAction_eq_self {p : PlayerId} (hp : p ∉ h.pending) (hr : p ∉ h.raiseRights) :
    h.consumeAction p = h := by
  unfold consumeAction
  rw [erase_eq_of_notMem hp, erase_eq_of_notMem hr]

section

variable (ho : h.OnTurn i)
include ho

/-- As long as the player on turn has not folded, a fold changes the hand. -/
theorem HoldemHand.OnTurn.not_final (hin : (h.seatAt i).status ≠ .folded) : ¬h.Final := by
  have hfold : (applyAction i (h.idAt i) .fold).run h = .ok () _ := rfl
  refine not_final_of_standing ho.next hfold fun hsame => hin ?_
  have hstatus := (seatAt_of_standing_eq hsame i).2
  rw [consumeAction_seatAt, seatAt_updateSeat_self (ho.next_lt i ho.next)] at hstatus
  exact hstatus.symm

variable (hfolded : (h.seatAt i).status = .folded)
include hfolded

theorem HoldemHand.OnTurn.folder_out : h.idAt i ∉ h.pending := fun hp => by
  have := ho.toInTurn.active (ho.next_lt i ho.next) hp
  simp [hfolded] at this

theorem HoldemHand.OnTurn.folder_no_right : h.idAt i ∉ h.raiseRights :=
  fun hr => ho.folder_out hfolded (ho.rights hr)

/-- A folder on turn has left one contender. -/
theorem HoldemHand.OnTurn.folder_funded : ∃ w, h.contenderSeats = {w} ∧ (h.seatAt i).Funded := by
  rcases ho.turn with hp | ⟨-, w, hw, hf⟩
  · exact absurd hp (ho.folder_out hfolded)
  · refine ⟨w, hw, hf i (ho.next_lt i ho.next) ?_⟩
    rintro rfl
    exact (mem_contenderSeats.mp (hw ▸ mem_singleton_self i)).2 hfolded

/-- Folding again changes nothing. -/
theorem HoldemHand.OnTurn.fold_run : (applyAction i (h.idAt i) .fold).run h = .ok () h := by
  have hseat : (h.updateSeat i fun s => { s with status := .folded }) = h := by
    rw [updateSeat_congr (g := id) (by rw [← hfolded]; rfl)]
    simp [updateSeat, List.modify_id]
  simp only [applyAction, run_bind, run_modify]
  rw [hseat, consumeAction_eq_self (ho.folder_out hfolded) (ho.folder_no_right hfolded)]

/-- A folder with nothing left to call can change nothing before the pot is paid. -/
theorem HoldemHand.OnTurn.eq_of_effect
    (hmatched : h.currentBet.value ≤ (h.seatAt i).streetCommitted.value)
    (he : ActionEffect h i a h₁) : h₁ = h := by
  cases he with
  | fold =>
    have hrun := ho.fold_run hfolded
    simp only [applyAction, run_bind, run_modify] at hrun
    exact (Result.ok.inj hrun).2
  | check _ => exact consumeAction_eq_self (ho.folder_out hfolded) (ho.folder_no_right hfolded)
  | call behind _ => exact absurd hmatched (not_le.mpr behind)
  | raiseFull right => exact absurd right (ho.folder_no_right hfolded)
  | raiseShort right => exact absurd right (ho.folder_no_right hfolded)

/-- With a call outstanding the folder can still put chips into the pot, or is marked
all-in when it has none. -/
theorem HoldemHand.OnTurn.matched_of_final (hf : (h.seatAt i).Funded) (hfinal : h.Final) :
    h.currentBet.value ≤ (h.seatAt i).streetCommitted.value := by
  by_contra hbehind
  rcases applyAction_run hf .call with ⟨h₁, happly⟩ | ⟨e, -, -, hrefused⟩
  · refine not_final_of_standing ho.next happly (fun hsame => ?_) hfinal
    have hseat := seatAt_of_standing_eq hsame i
    cases applyAction_eq_ok happly with
    | call _ pays =>
      rw [consumeAction_seatAt, seatAt_updateSeat_self (ho.next_lt i ho.next), hfolded] at hseat
      obtain ⟨hcommitted, hstatus⟩ := hseat
      have hgrows := pays.totalCommitted
      have hstack := pays.stack
      rw [hcommitted] at hgrows
      rw [pays.status, if_pos (Chips.ext (by rw [Chips.zero_value]; omega))] at hstatus
      cases hstatus
  · exact hbehind hrefused

theorem HoldemHand.OnTurn.final_iff_overflow (hw : h.contenderSeats = {w})
    (hf : (h.seatAt i).Funded) :
    h.Final ↔ h.currentBet.value ≤ (h.seatAt i).streetCommitted.value ∧
      2 ^ 64 ≤ (h.seatAt w).stack.value + h.wagered := by
  have hresolve := resolveTurn_of_singleton (i := i) hw
  constructor
  · intro hfinal
    refine ⟨ho.matched_of_final hfolded hf hfinal, ?_⟩
    rcases payUncontested_run ho.distinct (winner_lt hw) with ⟨h₂, hc, hpay⟩ | ⟨-, hover⟩
    swap
    · exact hover
    exfalso
    obtain ⟨e, herr⟩ := hfinal.1 (h.idAt i) .fold
    rw [act_run_of_next ho.next, if_pos rfl, run_bind_ok (ho.fold_run hfolded), hresolve] at herr
    have hbuild := buildSettlement_run { h₂ with street := .complete }
    by_cases hzero : ({ h₂ with street := .complete } : HoldemHand).totalDelta = 0
    · rw [if_pos hzero] at hbuild
      have hfinish : (finishUncontested (h.idAt w)).run h = _ := (run_bind_ok hpay).trans hbuild
      rw [run_bind_ok hfinish] at herr
      cases herr
    · rw [if_neg hzero] at hbuild
      have hfinish : (finishUncontested (h.idAt w)).run h = _ := (run_bind_ok hpay).trans hbuild
      rw [run_bind_error hfinish] at herr
      -- the hand is unchanged only if the pot is empty, and then the check succeeds
      have hstate := (Result.error.inj herr).2
      have hstack := hc.stack w (winner_lt hw)
      have hsame : (h₂.seatAt w).stack = (h.seatAt w).stack := by rw [← hstate]; rfl
      have hle := ho.stacks_le
      rw [if_pos rfl, hsame] at hstack
      refine hzero ((totalDelta_of_pot_iff ho.toSolvent (winner_lt hw) hc).mpr (not_lt.mpr ?_))
      omega
  · rintro ⟨hmatched, hover⟩
    refine ⟨fun p a => ?_, fun board holeCards =>
      ⟨_, settleShowdown_of_complete ho.street board holeCards⟩⟩
    rw [act_run_of_next ho.next]
    split
    · rename_i hp
      subst hp
      rcases applyAction_run hf a with ⟨h₁, happly⟩ | ⟨e, herr, -⟩
      · obtain rfl := ho.eq_of_effect hfolded hmatched (applyAction_eq_ok happly)
        rw [run_bind_ok happly, hresolve]
        rcases payUncontested_run ho.distinct (winner_lt hw) with ⟨h₂, hc, -⟩ | ⟨herr, -⟩
        · exact absurd hover (hc.pot_fits (winner_lt hw)).not_ge
        · exact ⟨_, run_bind_error (run_bind_error herr)⟩
      · exact ⟨e, run_bind_error herr⟩
    · exact ⟨_, rfl⟩

end

/-- A completed hand is final exactly when no turn is left that could change it. -/
theorem final_iff (hr : Reach level seats dealer h) (hstreet : h.street = .complete) :
    h.Final ↔ h.NoTurnLeft := by
  cases hr.phase with
  | round hr => exact absurd (hstreet ▸ hr.street) (by decide)
  | showdown hs => exact absurd (hs.street.symm.trans hstreet) (by decide)
  | settled hs =>
    refine ⟨fun _ => .inl hs.next, fun _ => ⟨fun p a => ⟨_, act_of_next_eq_none hs.next⟩, ?_⟩⟩
    exact fun board holeCards => ⟨_, settleShowdown_of_complete hstreet board holeCards⟩
  | @onTurn i ho =>
    have hnext : h.nextToAct ≠ none := by simp [ho.next]
    by_cases hfolded : (h.seatAt i).status = .folded
    · obtain ⟨w, hw, hf⟩ := ho.folder_funded hfolded
      rw [ho.final_iff_overflow hfolded hw hf]
      constructor
      · rintro ⟨hmatched, hover⟩
        exact .inr ⟨i, w, ho.next, hfolded, hmatched, hw, hover⟩
      · rintro (hnone | ⟨i', w', hnext, -, hmatched, hseats, hover⟩)
        · exact absurd hnone hnext
        · obtain rfl : i = i' := Option.some.inj (ho.next.symm.trans hnext)
          obtain rfl : w = w' := singleton_injective (hw.symm.trans hseats)
          exact ⟨hmatched, hover⟩
    · refine iff_of_false (ho.not_final hfolded) ?_
      rintro (hnone | ⟨i', _, hnext, hfolded', -⟩)
      · exact hnext hnone
      · obtain rfl : i = i' := Option.some.inj (ho.next.symm.trans hnext)
        exact hfolded hfolded'

/-- A hand that the small blind gave up. -/
theorem final_iff_heads_up :
    ∃ h, Reach oneTwoLevel headsUp 0 h ∧ h.street = .complete ∧
      (h.Final ↔ h.NoTurnLeft) := by
  obtain ⟨h, hr, hstreet⟩ :=
    exists_reach_of_play oneTwoLevel headsUp 0 [(player 1, .fold)]
    (fun h => h.street = .complete) (by decide +kernel)
  exact ⟨h, hr, hstreet, final_iff hr hstreet⟩

/-- After the small blind has folded, a second fold fails but pays the winner the
blinds again; a call by the folder even goes through as far as the payment. -/
theorem completed_hand_changes :
    ∃ h, Reach oneTwoLevel headsUp 0 h ∧ h.street = .complete ∧
      h.seats.map (·.stack) = [chips 99, chips 101] ∧
      (∃ h', (act (player 1) .fold).run h = .error .stateInvariant h' ∧
        h'.seats.map (·.stack) = [chips 99, chips 104]) ∧
      ∃ h', (act (player 1) .call).run h = .error .stateInvariant h' ∧
        h'.seats.map (·.stack) = [chips 98, chips 105] :=
  exists_reach_of_play _ _ _ [(player 1, .fold)] _ (by decide +kernel)

end TokenHoldem
