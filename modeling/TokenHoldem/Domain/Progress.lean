import TokenHoldem.Domain.Outcomes

/-!
# Progress of a betting round

At a level that `StakeLevel::new` built, a hand has two players, the blinds differ
and every stack covers the big blind. Nobody is then ahead of the bet, and a betting
round always has somebody to act (`Betting`, `Reach.betting`).

`betting_progress` collects what holds in every reachable betting round: the turn
order is consistent, the player on turn always has a move, a street ends only when
nobody is pending or only one player is left, and `act` never reports a broken
invariant. A fold can fail in one way only: the stack of the player it makes the
winner cannot hold the pot.
-/

namespace TokenHoldem

open Library HoldemHand Finset

variable {h h' h₁ : HoldemHand} {i : Nat} {p : PlayerId} {a : PlayerAction} {out : ActionOutcome}
  {level : BuiltLevel} {seats : List (PlayerId × Chips)} {dealer : Nat}

/-! ## Betting rounds of a built level -/

/-- A betting round with two players or more, nobody ahead of the bet, and a player
on turn. -/
structure HoldemHand.Betting (h : HoldemHand) : Prop extends h.Round, h.Turns where
  two_le : 2 ≤ h.size
  next : ∃ i, h.nextToAct = some i

theorem HoldemHand.Betting.contenders (hb : h.Betting) : 2 ≤ h.contenderSeats.card :=
  hb.contested.resolve_right (by have := hb.two_le; omega)

/-- Every stack can pay the big blind. -/
theorem initial_stack_ge (hc : StartChecks level seats dealer) {j : Nat}
    (hj : j < seats.length) : level.bigBlind.value ≤ (seats[j]).2.value :=
  level.bigBlind_le.trans (hc.stack_ge _ (List.getElem_mem hj))

/-- The two blinds are posted by different seats of the table. -/
theorem blindPositions_ne {sb bb first : Nat} (hpos : h.blindPositions = (sb, bb, first))
    (htwo : 2 ≤ h.size) (hdealer : h.dealerIndex < h.size) : sb ≠ bb := by
  unfold blindPositions at hpos
  change (if h.size = 2 then _ else _) = _ at hpos
  split_ifs at hpos with htwo'
  · simp only [Prod.mk.injEq] at hpos
    omega
  · simp only [Prod.mk.injEq] at hpos
    obtain ⟨rfl, rfl, -⟩ := hpos
    change (h.dealerIndex + 1) % h.size ≠ (h.dealerIndex + 2) % h.size
    -- both positions lie less than one round after the dealer
    have hwrap : ∀ k < h.size, (h.dealerIndex + k) % h.size =
        if h.dealerIndex + k < h.size then h.dealerIndex + k else h.dealerIndex + k - h.size := by
      intro k hk
      split
      · exact Nat.mod_eq_of_lt ‹_›
      · rw [Nat.mod_eq_sub_mod (by omega), Nat.mod_eq_of_lt (by omega)]
    rw [hwrap 1 (by omega), hwrap 2 (by omega)]
    split_ifs <;> omega

/-- After the blinds nobody is ahead of the big blind, and the small blind, who can pay
more, is still active. -/
theorem blinds_of_start (hs : start level seats dealer = .ok h) :
    (∃ sb < h.size, (h.seatAt sb).status = .active) ∧
      ∀ j < h.size, (h.seatAt j).streetCommitted.value ≤ level.bigBlind.value := by
  have hc := startChecks_of_ok hs
  have htwo : 2 ≤ seats.length := level.two_le_players.trans hc.players_ge
  obtain ⟨h₁, _, sb, bb, first, s₁, s₂, hpos, hsb, hbb, hpays₁, rfl, hpays₂, rfl, rfl⟩ :=
    start_pays hs
  have hne : sb ≠ bb := blindPositions_ne hpos (initial_size ▸ htwo) (initial_size ▸ hc.dealer_lt)
  have hsb' : sb < (initial level seats dealer).size := initial_size ▸ hsb
  rw [seatAt_updateSeat_of_ne hsb' hne.symm] at hpays₂
  set h₁ := (initial level seats dealer).updateSeat sb fun _ => s₁
  have hsize : h₁.size = seats.length := size_updateSeat.trans initial_size
  rw [hsize] at hbb
  have hat : ∀ j, HoldemHand.seatAt { (h₁.updateSeat bb fun _ => s₂).resetPendingForStreet with
      nextToAct := (h₁.updateSeat bb fun _ => s₂).resetPendingForStreet.nextPendingFrom first } j =
      (h₁.updateSeat bb fun _ => s₂).seatAt j := fun _ => rfl
  have hlen : HoldemHand.size { (h₁.updateSeat bb fun _ => s₂).resetPendingForStreet with
      nextToAct := (h₁.updateSeat bb fun _ => s₂).resetPendingForStreet.nextPendingFrom first } =
      seats.length := size_updateSeat.trans hsize
  have hlt := level.smallBlind_lt
  rw [initial_seatAt hsb] at hpays₁
  rw [initial_seatAt hbb] at hpays₂
  have hstreet₁ := hpays₁.streetCommitted
  have hstreet₂ := hpays₂.streetCommitted
  have hstack₁ := hpays₁.stack
  have hge := initial_stack_ge hc hsb
  simp only [Chips.zero_value] at hstreet₁ hstreet₂ hstack₁
  simp only [hat, hlen]
  have hsbat : (h₁.updateSeat bb fun _ => s₂).seatAt sb = s₁ := by
    rw [seatAt_updateSeat_of_ne (hsize ▸ hbb) hne, seatAt_updateSeat_self hsb']
  refine ⟨⟨sb, hsb, ?_⟩, fun j hj => ?_⟩
  · rw [hsbat, hpays₁.status, if_neg]
    intro h0
    rw [h0, Chips.zero_value] at hstack₁
    omega
  · by_cases hjb : j = bb
    · rw [hjb, seatAt_updateSeat_self (hsize ▸ hbb)]
      omega
    by_cases hjs : j = sb
    · rw [hjs, hsbat]
      omega
    · rw [seatAt_updateSeat_of_ne (hsize ▸ hbb) hjb, seatAt_updateSeat_of_ne hsb' hjs,
        initial_seatAt hj]
      exact Nat.zero_le _

theorem betting_of_start (hs : start level seats dealer = .ok h) : h.Betting := by
  have ho := start_opened hs
  have hr := round_of_start hs
  obtain ⟨⟨sb, hsb, hactive⟩, hle⟩ := blinds_of_start hs
  have hturns : h.Turns := hr.toInTurn.turns ho.pending (ho.currentBet.symm ▸ hle)
  have hpending : h.pending.Nonempty := by
    rw [ho.pending]
    exact ⟨_, mem_actionablePlayers.mpr ⟨sb, hsb, rfl, hactive, by simp⟩⟩
  obtain ⟨first, hfirst⟩ := ho.next
  refine { hr, hturns with two_le := ?_, next := ?_ }
  · rw [ho.roster.size, initial_size]
    exact level.two_le_players.trans ho.checks.players_ge
  · rw [hfirst]
    exact hr.toInTurn.next_isSome hpending first

/-- A successful action in a betting round leads to another one, or out of betting. -/
theorem HoldemHand.Betting.act_ok (hb : h.Betting) (hrun : (act p a).run h = .ok out h')
    (hs : h'.street.IsBetting) : h'.Betting := by
  have hph := Phase.round hb.toRound
  obtain ⟨i, h₁, hnext, hi, he, hs₁, hresolved⟩ := hph.act_resolved hrun
  have hturns := he.turns hb.toTurns hi
  have hr' : h'.Round := by
    cases hph.act_ok hrun with
    | round hr => exact hr
    | showdown hs' => exact absurd (hs'.street ▸ hs) (by decide)
    | settled hs' => exact absurd (hs'.street ▸ hs) (by decide)
    | onTurn ho => exact absurd (ho.street ▸ hs) (by decide)
  have htwo : 2 ≤ h'.size := by
    rw [hresolved.sameRoster.size, (he.acted hi).size]
    exact hb.two_le
  cases hresolved with
  | won => exact absurd hs (by simp [Street.IsBetting, Street.next?])
  | advanced _ hadv =>
    cases hadv with
    | opened _ _ hcard =>
      have hopen := hr'.toInTurn.turns_openStreet
      have hpending := card_pos.mp (Nat.zero_lt_two.trans_le hcard)
      exact { hr', hopen with two_le := htwo, next := hr'.toInTurn.next_isSome hpending _ }
    | shown => exact absurd hs (by simp [Street.IsBetting, Street.next?])
    | skipped => exact absurd hs (by simp [Street.IsBetting, Street.next?])
  | passed =>
    exact { hr' with
      matched := hturns.matched, bet_le := hturns.bet_le, two_le := htwo, next := ⟨_, rfl⟩ }

/-- Every reachable betting round of a built level has a player on turn. -/
theorem Reach.betting (hr : Reach level seats dealer h) (hs : h.street.IsBetting) : h.Betting := by
  induction hr with
  | start hstart => exact betting_of_start hstart
  | act hr hrun ih =>
    refine (ih ?_).act_ok hrun hs
    cases hr.phase with
    | round hround => exact hround.street
    | showdown hshow => simp [act_of_next_eq_none hshow.next] at hrun
    | settled hdone => simp [act_of_next_eq_none hdone.next] at hrun
    | onTurn ho =>
      have hcomplete := act_street_complete _ _ ho.street |>.of_ok hrun
      exact absurd (hcomplete ▸ hs) (by decide)
  | settle hr hrun =>
    obtain ⟨-, g, h₁, -, rfl, -⟩ := hr.phase.settle_ok hrun
    exact absurd hs (by simp [Street.IsBetting, Street.next?])

/-! ## Turns -/

/-- A fold of seat `i` leaves one player, whose stack cannot hold the pot. -/
def HoldemHand.FoldOverflows (h : HoldemHand) (i : Nat) : Prop :=
  ∃ w, h.contenderSeats.erase i = {w} ∧
    2 ^ 64 ≤ (h.seatAt w).stack.value + h.wagered

/-- A street may end after an action that leaves nobody pending, or one contender. -/
def HoldemHand.StreetOver (h₁ : HoldemHand) : Prop :=
  h₁.pending = ∅ ∨ h₁.contenderSeats.card = 1

/-- How a call of `act` by the player on turn can end. -/
inductive TurnResult (h : HoldemHand) (i : Nat) (a : PlayerAction) : Prop
  | done {h₁ h' : HoldemHand} {out : ActionOutcome}
      (applied : (applyAction i (h.idAt i) a).run h = .ok () h₁)
      (run : (act (h.idAt i) a).run h = .ok out h')
      (ends : h'.street ≠ h.street → h₁.StreetOver)
      (fits : a = .fold → ¬h.FoldOverflows i)
  | refused {e : HoldemError} (run : (act (h.idAt i) a).run h = .error e h)
      (why : ActionRefused h i a e)
  | overflow {h₁ : HoldemHand} (run : (act (h.idAt i) a).run h = .error .chipOverflow h₁)
      (folds : a = .fold) (exceeds : h.FoldOverflows i)

/-- Only a fold leaves one player. -/
theorem HoldemHand.Betting.fold_of_winner (hb : h.Betting) (hnext : h.nextToAct = some i)
    (he : ActionEffect h i a h₁) {w : Nat} (hw : h₁.contenderSeats = {w}) :
    a = .fold ∧ h.contenderSeats.erase i = {w} ∧ (h₁.seatAt w).stack = (h.seatAt w).stack ∧
      h₁.wagered = h.wagered := by
  have hi := hb.next_lt i hnext
  have htwo := hb.contenders
  have hseats := he.contenderSeats hi (hb.toRound.active hnext)
  split at hseats
  · rename_i hfold
    subst hfold
    have herase := hseats.symm.trans hw
    have hwi : w ≠ i := (mem_erase.mp (herase ▸ mem_singleton_self w)).1
    exact ⟨rfl, herase, by rw [(he.acted hi).others w hwi], he.fold_total hi⟩
  · rw [← hseats, hw, card_singleton] at htwo
    omega

theorem HoldemHand.Betting.turnResult (hb : h.Betting) (hnext : h.nextToAct = some i)
    (a : PlayerAction) : TurnResult h i a := by
  have hi := hb.next_lt i hnext
  rcases applyAction_run (hb.funded i hi) a with ⟨h₁, happly⟩ | ⟨e, herr, hwhy⟩
  swap
  · refine .refused ?_ hwhy
    rw [act_run_of_next hnext, if_pos rfl, run_bind_error herr]
  have he := applyAction_eq_ok happly
  have hp₁ := hb.toInPlay.of_effect hi he
  have hact : (act (h.idAt i) a).run h = (resolveTurn i).run h₁ := by
    rw [act_run_of_next hnext, if_pos rfl, run_bind_ok happly]
  by_cases hone : h₁.contenderSeats.card = 1
  · -- the last player is paid, or the pot does not fit
    obtain ⟨w, hw⟩ := card_eq_one.mp hone
    obtain ⟨rfl, herase, hstack, hpot⟩ := hb.fold_of_winner hnext he hw
    rcases resolveTurn_of_winner hp₁.distinct hp₁.funded hw i with ⟨h₂, hc, hok⟩ | ⟨herr, hover⟩
    · refine .done happly (hact.trans hok) (fun _ => .inr hone) ?_
      rintro - ⟨w', herase', hover⟩
      obtain rfl : w = w' := singleton_injective (herase.symm.trans herase')
      have hfits := hc.pot_fits (winner_lt hw)
      rw [hstack, hpot] at hfits
      omega
    · rw [hstack, hpot] at hover
      exact .overflow (hact.trans herr) rfl ⟨w, herase, hover⟩
  · have hfits : a = .fold → ¬h.FoldOverflows i := by
      rintro rfl ⟨w, herase, -⟩
      have hseats := he.contenderSeats hi (hb.toRound.active hnext)
      rw [if_pos rfl, herase] at hseats
      exact hone (by rw [hseats, card_singleton])
    rw [resolveTurn_of_card_ne_one hone] at hact
    split at hact
    · obtain ⟨out, h', hadvance, -⟩ := advanceStreet_run ((he.acted hi).street.symm ▸ hb.street)
      exact .done happly (hact.trans hadvance) (fun _ => .inl ‹_›) hfits
    · obtain ⟨k, hk⟩ := hp₁.toInTurn.next_isSome (nonempty_iff_ne_empty.mpr ‹_›)
        ((i + 1) % h₁.size)
      rw [hk] at hact
      exact .done happly hact (fun hne => absurd (he.acted hi).street hne) hfits

/-- What holds in a betting round. -/
structure BettingProgress (h : HoldemHand) (i : Nat) : Prop where
  next : h.nextToAct = some i
  lt : i < h.size
  active : (h.seatAt i).status = .active
  pending : h.idAt i ∈ h.pending
  pending_active : ∀ q ∈ h.pending, ∃ j < h.size, h.idAt j = q ∧ (h.seatAt j).status = .active
  matched : ∀ j < h.size, (h.seatAt j).status = .active → h.idAt j ∉ h.pending →
    (h.seatAt j).streetCommitted = h.currentBet
  bet_le : ∀ j < h.size, (h.seatAt j).streetCommitted.value ≤ h.currentBet.value
  contenders : 2 ≤ h.remainingContenders.length
  /-- A fold succeeds unless the pot does not fit on the winner's stack. -/
  fold : (∃ out h', (act (h.idAt i) .fold).run h = .ok out h') ↔ ¬h.FoldOverflows i
  checkOrCall : Xor (∃ out h', (act (h.idAt i) .check).run h = .ok out h')
    (∃ out h', (act (h.idAt i) .call).run h = .ok out h')
  /-- A street ends only when nobody is pending or one contender is left. -/
  street : ∀ p a out h', (act p a).run h = .ok out h' → h'.street ≠ h.street →
    ∃ h₁, (applyAction i p a).run h = .ok () h₁ ∧ h₁.StreetOver
  sound : ∀ p a h', (act p a).run h ≠ .error .stateInvariant h'

/-- Other actions than a fold succeed exactly when they are legal. -/
theorem HoldemHand.Betting.act_ok_iff (hb : h.Betting) (hnext : h.nextToAct = some i)
    (a : PlayerAction) {legal : Prop} (hstays : a ≠ .fold)
    (heffect : ∀ h₁, ActionEffect h i a h₁ → legal)
    (hrefused : ∀ e, ActionRefused h i a e → ¬legal) :
    (∃ out h', (act (h.idAt i) a).run h = .ok out h') ↔ legal := by
  constructor
  · rintro ⟨out, h', hrun⟩
    obtain ⟨-, h₁, he, -⟩ := act_eq_ok hnext hrun
    exact heffect h₁ he
  · intro hlegal
    cases hb.turnResult hnext a with
    | done _ run => exact ⟨_, _, run⟩
    | refused _ why => exact absurd hlegal (hrefused _ why)
    | overflow _ folds => exact absurd folds hstays

/-- Never a broken invariant, whoever calls `act`. -/
theorem HoldemHand.Betting.act_ne_stateInvariant (hb : h.Betting) (p : PlayerId)
    (a : PlayerAction) :
    (act p a).run h ≠ .error .stateInvariant h' := by
  obtain ⟨i, hnext⟩ := hb.next
  by_cases hid : h.idAt i = p
  · subst hid
    cases hb.turnResult hnext a with
    | done _ run => simp [run]
    | overflow run => simp [run]
    | @refused e run why =>
      rw [run]
      rintro ⟨⟩
      cases a with
      | fold => exact why
      | check => cases why.1
      | call => cases why.1
      | raiseTo _ => exact why rfl
  · rw [act_run_of_next hnext, if_neg hid]
    simp

/-- Every reachable betting round of a built level makes progress. -/
theorem betting_progress (hr : Reach level seats dealer h)
    (hstreet : h.street.IsBetting) : ∃ i, BettingProgress h i := by
  have hb := hr.betting hstreet
  obtain ⟨i, hnext⟩ := hb.next
  refine ⟨i, ?_⟩
  exact
    { next := hnext
      lt := hb.next_lt i hnext
      active := hb.toRound.active hnext
      pending := hb.asked i hnext
      pending_active := hb.pending_active
      matched := hb.matched
      bet_le := hb.bet_le
      contenders := by
        rw [length_remainingContenders]
        exact hb.contenders
      fold := by
        cases hb.turnResult hnext .fold with
        | done _ run _ fits => exact iff_of_true ⟨_, _, run⟩ (fits rfl)
        | refused _ why => exact why.elim
        | overflow run _ exceeds => exact iff_of_false (by simp [run]) (not_not.mpr exceeds)
      checkOrCall := by
        have hcheck := hb.act_ok_iff hnext .check (by simp) (fun _ (.check matched) => matched)
          fun _ why => why.2
        have hcall := hb.act_ok_iff hnext .call (by simp) (fun _ (.call behind _) => behind)
          fun _ why => not_lt.mpr why.2
        rw [hcheck, hcall]
        have hle := hb.bet_le i (hb.next_lt i hnext)
        rcases hle.eq_or_lt with heq | hlt
        · exact .inl ⟨Chips.ext heq, heq.not_lt⟩
        · exact .inr ⟨hlt, fun heq => hlt.ne (congrArg Chips.value heq)⟩
      street := by
        intro p a out h' hrun hne
        obtain ⟨rfl, -⟩ := act_eq_ok hnext hrun
        cases hb.turnResult hnext a with
        | done applied run ends =>
          rw [run] at hrun
          cases hrun
          exact ⟨_, applied, ends hne⟩
        | refused run =>
          rw [run] at hrun
          cases hrun
        | overflow run =>
          rw [run] at hrun
          cases hrun
      sound := fun p a h' => hb.act_ne_stateInvariant p a }

/-- The first turn of three players. -/
theorem betting_progress_three_stacks :
    ∃ h, Reach oneTwoLevel threeStacks 0 h ∧ ∃ i, BettingProgress h i := by
  obtain ⟨h, hr, hstreet⟩ := exists_reach_of_play oneTwoLevel threeStacks 0 []
    (fun h => h.street.IsBetting) (by decide +kernel)
  exact ⟨h, hr, betting_progress hr hstreet⟩

/-- Blinds 1 and 2 with no upper limit on the buy-in but that of the type. -/
def deepLevel : BuiltLevel where
  toStakeLevel := { oneTwoLevel.toStakeLevel with maximumBuyIn := chips (2 ^ 64 - 1) }
  id_nonblank := by decide
  smallBlind_pos := by decide
  smallBlind_lt := by decide
  bigBlind_le := by decide
  buyIn_le := by decide
  two_le_players := by decide
  players_le := by decide
  players_le_nine := by decide

/-- Blinds 10 and 20 with a minimal buy-in of one chip. -/
def shallowLevel : StakeLevel :=
  { oneTwoLevel.toStakeLevel with
    smallBlind := chips 10, bigBlind := chips 20, minimumBuyIn := chips 1 }

/-- Two folds end a hand of three while the big blind is still pending; with stacks at
the limit of the type a fold is refused, because the winner's stack would overflow;
and at a level whose buy-ins do not cover the blinds a hand opens with nobody to act. -/
theorem street_ends_with_pending :
    (∃ h, Reach oneTwoLevel threeStacks 0 h ∧ h.street = .preflop ∧
      ∃ out h', (act (player 2) .fold).run h = .ok out h' ∧
        h'.street = .complete ∧ h'.pending = {player 3}) ∧
    (∃ h, Reach deepLevel
        [(player 1, chips (2 ^ 64 - 1)), (player 2, chips (2 ^ 64 - 1))] 0 h ∧
      h.street = .preflop ∧ h.nextToAct = some 0 ∧
      ∃ h', (act (player 1) .fold).run h = .error .chipOverflow h' ∧ h' ≠ h) ∧
    ∃ h, Reach shallowLevel [(player 1, chips 5), (player 2, chips 5)] 0 h ∧
      h.street = .preflop ∧ h.nextToAct = none ∧ h.pending = ∅ :=
  ⟨exists_reach_of_play _ _ _ [(player 1, .fold)] _ (by decide +kernel),
    exists_reach_of_play _ _ _ [] _ (by decide +kernel),
    exists_reach_of_play _ _ _ [] _ (by decide +kernel)⟩

end TokenHoldem
