import TokenHoldem.Domain.Phases

/-!
# Outcomes of a hand

What a settlement may pay, and when it can be formed.

* `settleShowdown_ok_iff` — a showdown succeeds exactly when at most one seat
  has committed more than every contender. Two players who out-bet the all-in
  contenders and then both fold leave a layer without an owner.
* `settlement_fair_iff` — no player wins more from an opponent than its own
  commitment, except when an uncontested winner is out-committed by a folder.
-/

namespace TokenHoldem

open Library HoldemHand Finset

variable {h h' : HoldemHand} {level : StakeLevel} {seats : List (PlayerId × Chips)} {dealer : Nat}

/-! ## When a showdown can be settled -/

/-- With buy-ins that fit a `u64` together and valid cards, `settle_showdown`
succeeds exactly when at most one seat has committed more than every contender. -/
theorem settleShowdown_ok_iff (hr : Reach level seats dealer h) (hs : h.street = .showdown)
    (hsum : (seats.map (·.2.value)).sum < 2 ^ 64) {board : Board} {holeCards : HoleCards}
    (hcards : ShowsCards h board holeCards) :
    (∃ settlement h', (settleShowdown board holeCards).run h = .ok settlement h') ↔
      h.LoneExcess := by
  have hshow := hr.phase.atShowdown hs
  rcases hshow.payShowdown_run hcards with
    ⟨g, h₁, hpaid, hlone, hok⟩ | ⟨_, -, hover⟩ | ⟨h₁, herr, hnot⟩
  · have hbuild := buildSettlement_run { h₁ with street := .complete }
    rw [if_pos (hpaid.totalDelta_eq_zero hshow.funded)] at hbuild
    exact ⟨fun _ => hlone, fun _ => ⟨_, _, (run_bind_ok hok).trans hbuild⟩⟩
  · rw [hr.total_startingStack] at hover
    omega
  · refine ⟨fun ⟨settlement, h', hrun⟩ => ?_, fun hlone => absurd hlone hnot⟩
    rw [show (settleShowdown board holeCards).run h = _ from run_bind_error herr] at hrun
    cases hrun

/-- Two short stacks against two deep ones. -/
def shortAndDeep : List (PlayerId × Chips) :=
  [(player 1, chips 40), (player 2, chips 40), (player 3, chips 200), (player 4, chips 200)]

/-- Both short stacks are all-in for 40; the deep players bet 10 more on the flop
and both fold on the turn. -/
def deepPlayersFold : List (PlayerId × PlayerAction) :=
  [(player 4, .raiseTo (chips 40)), (player 1, .call), (player 2, .call), (player 3, .call),
    (player 3, .raiseTo (chips 10)), (player 4, .call), (player 3, .fold), (player 4, .fold)]

/-- The showdown of the two short stacks fails after the main pot has been paid. -/
theorem settleShowdown_strands_layer :
    ∃ h, Reach oneTwoLevel shortAndDeep 0 h ∧ h.street = .showdown ∧
      ShowsCards h dryBoard pocketCards ∧
      h.seats.map (·.stack) = [chips 0, chips 0, chips 150, chips 150] ∧
      ∃ h', (settleShowdown dryBoard pocketCards).run h = .error .stateInvariant h' ∧
        h'.seats.map (·.stack) = [chips 0, chips 160, chips 150, chips 150] :=
  exists_reach_of_play _ _ _ deepPlayersFold _ (by decide +kernel)

/-- A showdown of three players with different stacks. -/
theorem settleShowdown_ok_iff_three_stacks :
    ∃ h, Reach oneTwoLevel threeStacks 0 h ∧
      ShowsCards h dryBoard pocketCards ∧
      ((∃ settlement h', (settleShowdown dryBoard pocketCards).run h = .ok settlement h') ↔
        h.LoneExcess) := by
  obtain ⟨h, hr, hs, hcards⟩ := exists_reach_of_play oneTwoLevel threeStacks 0
    [(player 1, .raiseTo (chips 40)), (player 2, .call), (player 3, .raiseTo (chips 100)),
      (player 2, .call)]
    (fun h => h.street = .showdown ∧ ShowsCards h dryBoard pocketCards) (by decide +kernel)
  exact ⟨h, hr, hcards, settleShowdown_ok_iff hr hs (by decide) hcards⟩

/-! ## What a player may win -/

namespace HoldemHand

/-- What the other seats put in, each up to the commitment of seat `i`. -/
def winLimit (h : HoldemHand) (i : Nat) : Nat :=
  ∑ j ∈ (range h.size).erase i, min (h.committed i) (h.committed j)

/-- No seat of a settlement wins more than its limit. -/
def Fair (h : HoldemHand) (settlement : HoldemSettlement) : Prop :=
  ∀ i record, settlement.players[i]? = some record → record.delta ≤ (h.winLimit i : Int)

/-- Every contender has committed at least as much as every seat. -/
def ContendersCover (h : HoldemHand) : Prop :=
  ∀ w ∈ h.contenderSeats, ∀ j < h.size, h.committed j ≤ h.committed w

end HoldemHand

variable {i : Nat} {h₁ : HoldemHand}

/-- The result of a seat whose chips add up: what it was paid, less what it had put in. -/
theorem delta_of_credits {g : Nat → Nat} {record : PlayerSettlement}
    (hf : ∀ j < h.size, (h.seatAt j).Funded) (hc : h.Credits g h')
    (hrec : h'.playerSettlements[i]? = some record) :
    i < h.size ∧ record.delta = (g i : Int) - h.committed i := by
  rw [playerSettlements, seats_eq_map h', List.map_map, List.getElem?_map] at hrec
  obtain ⟨j, hj, rfl⟩ := Option.map_eq_some_iff.mp hrec
  obtain ⟨hlt, rfl⟩ := List.getElem?_eq_some_iff.mp hj
  simp only [List.length_range, hc.size] at hlt
  refine ⟨hlt, ?_⟩
  have hchips := (hf i hlt).chips
  have hstack := hc.stack i hlt
  have hstart := congrArg Chips.value (hc.startingStack hlt)
  simp only [List.getElem_range, Function.comp_apply, committed]
  omega

theorem winLimit_congr (h h' : HoldemHand) (hsize : h'.size = h.size)
    (hc : ∀ j < h.size, h'.committed j = h.committed j) (hi : i < h.size) :
    h'.winLimit i = h.winLimit i := by
  unfold winLimit
  rw [hsize, hc i hi]
  exact sum_congr rfl fun j hj => by rw [hc j (mem_range.mp (mem_of_mem_erase hj))]

/-- A fold moves no chips. -/
theorem ActionEffect.fold_committed (he : ActionEffect h i .fold h₁) (hi : i < h.size) (j : Nat) :
    h₁.committed j = h.committed j := by
  unfold committed
  by_cases hji : j = i
  · rcases he.actor_cases hi with ⟨-, hseat⟩ | ⟨hcheck, -⟩ | ⟨hne, -⟩
    · rw [hji, hseat]
    · cases hcheck
    · exact absurd rfl hne
  · rw [(he.acted hi).others j hji]

theorem ActionEffect.fold_total (he : ActionEffect h i .fold h₁) (hi : i < h.size) :
    h₁.wagered = h.wagered :=
  sum_congr (by rw [(he.acted hi).size]) fun j _ => he.fold_committed hi j

/-- The uncontested winner takes every commitment: fair exactly when nobody has
committed more. -/
theorem fair_of_uncontested_iff {w : Nat} {h₂ : HoldemHand}
    (hf : ∀ j < h.size, (h.seatAt j).Funded) (hw : w < h.size)
    (hc : h.Credits (fun j => if j = w then h.wagered else 0) h₂) :
    h.Fair ⟨h₂.playerSettlements⟩ ↔ ∀ j < h.size, h.committed j ≤ h.committed w := by
  have hpot : h.wagered =
      h.committed w + ∑ j ∈ (range h.size).erase w, h.committed j :=
    (add_sum_erase _ _ (mem_range.mpr hw)).symm
  have hothers : (∀ j ∈ (range h.size).erase w, h.committed j ≤ h.committed w) ↔
      ∀ j < h.size, h.committed j ≤ h.committed w := by
    refine ⟨fun hall j hj => ?_, fun hall j hj => hall j (mem_range.mp (mem_of_mem_erase hj))⟩
    by_cases hjw : j = w
    · rw [hjw]
    · exact hall j (mem_erase.mpr ⟨hjw, mem_range.mpr hj⟩)
  rw [← hothers, ← LayeredPot.sum_le_sum_min_iff]
  constructor
  · intro hfair
    obtain ⟨record, hrec⟩ : ∃ record, h₂.playerSettlements[w]? = some record := by
      refine ⟨_, List.getElem?_eq_getElem ?_⟩
      simpa [playerSettlements, hc.size] using hw
    have hdelta := (delta_of_credits hf hc hrec).2
    have hle := hfair w record hrec
    rw [hdelta, if_pos rfl, hpot] at hle
    unfold winLimit at hle
    omega
  · intro hle i record hrec
    obtain ⟨-, hdelta⟩ := delta_of_credits hf hc hrec
    rw [hdelta]
    by_cases hiw : i = w
    · subst hiw
      rw [if_pos rfl, hpot]
      unfold winLimit
      omega
    · rw [if_neg hiw]
      omega

/-- A showdown pays nobody more than lies below its own commitment. -/
theorem ShowdownPaid.fair {g : Nat → Nat} (hf : ∀ j < h.size, (h.seatAt j).Funded)
    (hp : ShowdownPaid h g h₁) : h.Fair ⟨h₁.playerSettlements⟩ := by
  intro i record hrec
  obtain ⟨hi, hdelta⟩ := delta_of_credits hf hp.credits hrec
  have hle := hp.pays.le_potBelow (mem_range.mpr hi)
  have hbelow : LayeredPot.potBelow (range h.size) h.committed (h.committed i) =
      h.committed i + h.winLimit i := by
    unfold LayeredPot.potBelow winLimit
    rw [← add_sum_erase _ _ (mem_range.mpr hi), min_self]
    exact congrArg _ (sum_congr rfl fun j _ => min_comm _ _)
  rw [Nat.min_zero, LayeredPot.potBelow_zero, hbelow] at hle
  rw [hdelta]
  omega

/-- A settlement sees the commitments that the awards left alone. -/
theorem HoldemHand.Credits.fair_iff {g : Nat → Nat} (hf : ∀ j < h.size, (h.seatAt j).Funded)
    (hc : h.Credits g h₁) : HoldemHand.Fair { h₁ with street := .complete } ⟨h₁.playerSettlements⟩ ↔
      h.Fair ⟨h₁.playerSettlements⟩ := by
  refine forall₃_congr fun j record hrec => ?_
  rw [winLimit_congr h { h₁ with street := .complete } hc.size
    (fun k hk => hc.committed (mem_range.mpr hk)) (delta_of_credits hf hc hrec).1]

/-- Every settlement at a showdown is fair; one that ends the hand by an action is
fair exactly when the remaining player has committed at least as much as every
other seat. -/
theorem settlement_fair_iff (hr : Reach level seats dealer h) :
    (∀ p a settlement h', (act p a).run h = .ok (.handComplete settlement) h' →
      (h'.Fair settlement ↔ h'.ContendersCover)) ∧
    (∀ board holeCards settlement h',
      (settleShowdown board holeCards).run h = .ok settlement h' → h'.Fair settlement) := by
  constructor
  · intro p a settlement h' hrun
    obtain ⟨w, h₁, h₂, hw, hf, hc, rfl, rfl⟩ := hr.phase.act_handComplete hrun
    have hcover : HoldemHand.ContendersCover { h₂ with street := .complete } ↔
        ∀ j < h₁.size, h₁.committed j ≤ h₁.committed w := by
      change (∀ v ∈ h₂.contenderSeats, ∀ j < h₂.size, h₂.committed j ≤ h₂.committed v) ↔ _
      rw [hc.contenderSeats, hw, hc.size]
      simp only [mem_singleton, forall_eq, hc.committed (mem_range.mpr (winner_lt hw))]
      exact forall₂_congr fun j hj => by rw [hc.committed (mem_range.mpr hj)]
    rw [hc.fair_iff hf, fair_of_uncontested_iff hf (winner_lt hw) hc, hcover]
  · intro board holeCards settlement h' hrun
    obtain ⟨hs, g, h₁, hpaid, rfl, rfl⟩ := hr.phase.settle_ok hrun
    exact (hpaid.credits.fair_iff hs.funded).mpr (hpaid.fair hs.funded)

/-- The small blind of a heads-up hand folds, and the big blind wins one chip. -/
theorem settlement_fair_iff_heads_up :
    ∃ h settlement h', Reach oneTwoLevel headsUp 0 h ∧
      (act (player 1) .fold).run h = .ok (.handComplete settlement) h' ∧
      settlement.players.map (·.delta) = [-1, 1] ∧ (h'.Fair settlement ↔ h'.ContendersCover) := by
  obtain ⟨h, hr, out, h', hrun, rfl⟩ := exists_reach_of_play oneTwoLevel headsUp 0 []
    (fun h => ∃ out h', (act (player 1) .fold).run h = .ok out h' ∧ out = .handComplete
      ⟨[⟨player 1, chips 100, chips 99, -1⟩, ⟨player 2, chips 100, chips 101, 1⟩]⟩)
    (by decide +kernel)
  exact ⟨h, _, h', hr, hrun, rfl, (settlement_fair_iff hr).1 _ _ _ _ hrun⟩

/-- The settlement of a hand in which a player who is all-in for 40 takes 100
from each of two opponents. -/
def shortStackSweeps : HoldemSettlement where
  players :=
    [⟨player 1, chips 40, chips 240, 200⟩, ⟨player 2, chips 200, chips 100, -100⟩,
      ⟨player 3, chips 200, chips 100, -100⟩]

/-- Two deep players bet past a short all-in and then both fold: the short stack
wins 200 chips although it could only match 80. -/
theorem uncontested_settlement_unfair :
    ∃ h settlement h', Reach oneTwoLevel
        [(player 1, chips 40), (player 2, chips 200), (player 3, chips 200)] 0 h ∧
      (act (player 3) .fold).run h = .ok (.handComplete settlement) h' ∧
      ¬h'.Fair settlement := by
  obtain ⟨h, hr, out, h', hrun, rfl, hlimit⟩ := exists_reach_of_play oneTwoLevel
    [(player 1, chips 40), (player 2, chips 200), (player 3, chips 200)] 0
    [(player 1, .raiseTo (chips 40)), (player 2, .raiseTo (chips 100)), (player 3, .call),
      (player 2, .fold)]
    (fun h => ∃ out h', (act (player 3) .fold).run h = .ok out h' ∧
      out = .handComplete shortStackSweeps ∧ h'.winLimit 0 = 80) (by decide +kernel)
  refine ⟨h, _, h', hr, hrun, fun hfair => ?_⟩
  have := hfair 0 ⟨player 1, chips 40, chips 240, 200⟩ rfl
  rw [hlimit] at this
  exact absurd this (by decide)

end TokenHoldem
