import TokenHoldem.Domain.Betting

/-!
# Starting a hand

`HoldemHand::start` takes a level as it has been decoded, so blinds and buy-ins
need not fit together. When its checks pass the blinds are paid as far as the
stacks go, and the hand it returns is in the first betting round, maybe with
nobody to act (`start_isOk_iff`, `start_opened`).
-/

namespace TokenHoldem

open Library HoldemHand List EStateM

variable {level : StakeLevel} {seats : List (PlayerId × Chips)} {dealer : Nat} {h : HoldemHand}

/-! ## The seats before the blinds -/

theorem initial_size : (initial level seats dealer).size = seats.length := by
  simp [initial, size]

theorem initial_seatAt {j : Nat} (hj : j < seats.length) : (initial level seats dealer).seatAt j =
      ⟨seats[j].1, seats[j].2, seats[j].2, Chips.zero, Chips.zero, .active⟩ := by
  simp [initial, seatAt, hj]

theorem roster_initial : (initial level seats dealer).roster = seats := by
  simp only [roster, initial, map_map]
  exact map_id seats

theorem initial_distinct (hnodup : (seats.map (·.1)).Nodup) :
    (initial level seats dealer).DistinctIds := by
  intro i hi j hj hij
  rw [initial_size] at hi hj
  unfold idAt at hij
  rw [initial_seatAt hi, initial_seatAt hj] at hij
  have hi' : i < (seats.map (·.1)).length := by simpa using hi
  have hj' : j < (seats.map (·.1)).length := by simpa using hj
  exact (Nodup.getElem_inj_iff hnodup).mp
    (by simpa using hij : (seats.map (·.1))[i] = (seats.map (·.1))[j])

/-! ## Posting the blinds -/

/-- The checks of `start`, as facts about its arguments. -/
structure StartChecks (level : StakeLevel) (seats : List (PlayerId × Chips)) (dealer : Nat) :
    Prop where
  players_ge : level.minimumPlayers.toNat ≤ seats.length
  players_le : seats.length ≤ level.maximumPlayers.toNat
  dealer_lt : dealer < seats.length
  distinct : (seats.map (·.1)).Nodup
  stack_ge : ∀ s ∈ seats, level.minimumBuyIn.value ≤ s.2.value
  stack_le : ∀ s ∈ seats, s.2.value ≤ level.maximumBuyIn.value

theorem start_of_checks (hc : StartChecks level seats dealer)
    (hrun : postBlinds.run (initial level seats dealer) = .ok () h) :
    start level seats dealer = .ok h := by
  have hcard : (seats.map (·.1)).toFinset.card = seats.length := by
    rw [toFinset_card_of_nodup hc.distinct, length_map]
  have := hc.players_ge
  have := hc.players_le
  have := hc.dealer_lt
  unfold start
  rw [if_neg (by omega), if_neg (by omega), if_neg (not_not.mpr hcard), if_neg, hrun]
  simp only [any_eq_true, Bool.or_eq_true, decide_eq_true_eq, not_exists, not_and, not_or, not_lt]
  exact fun s hs => ⟨hc.stack_ge s hs, hc.stack_le s hs⟩

theorem startChecks_of_ok (hs : start level seats dealer = .ok h) :
    StartChecks level seats dealer := by
  unfold start at hs
  split_ifs at hs with h1 h2 h3 h4
  simp only [any_eq_true, Bool.or_eq_true, decide_eq_true_eq, not_exists, not_and, not_or,
    not_lt] at h4
  push Not at h3
  exact ⟨by omega, by omega, by omega,
    Multiset.coe_nodup.mp (Multiset.toFinset_card_eq_card_iff_nodup.mp
      (h3.trans (length_map _).symm)),
    fun s hs => (h4 s hs).1, fun s hs => (h4 s hs).2⟩

variable {i : Nat} {s' : SeatState}

theorem forall_updateSeat {good : SeatState → Prop} (hi : i < h.size)
    (hg : ∀ j < h.size, good (h.seatAt j)) (hs : good s') :
    ∀ j < (h.updateSeat i fun _ => s').size, good ((h.updateSeat i fun _ => s').seatAt j) := by
  intro j hj
  rw [size_updateSeat] at hj
  by_cases hji : j = i
  · subst hji
    rwa [seatAt_updateSeat_self hi]
  · rw [seatAt_updateSeat_of_ne hi hji]
    exact hg j hj

theorem sameRoster_updateSeat {n : Nat} (hi : i < h.size) (hp : (h.seatAt i).Pays n s') :
    h.SameRoster (h.updateSeat i fun _ => s') := by
  refine ⟨size_updateSeat, fun j _ => ?_, fun j _ => ?_⟩
  · by_cases hji : j = i
    · subst hji
      unfold idAt
      rw [seatAt_updateSeat_self hi]
      exact hp.playerId
    · unfold idAt
      rw [seatAt_updateSeat_of_ne hi hji]
  · by_cases hji : j = i
    · subst hji
      rw [seatAt_updateSeat_self hi]
      exact hp.startingStack
    · rw [seatAt_updateSeat_of_ne hi hji]

theorem blindPositions_lt {sb bb first : Nat} (hpos : h.blindPositions = (sb, bb, first))
    (hdealer : h.dealerIndex < h.size) : sb < h.size ∧ bb < h.size := by
  unfold size at *
  unfold blindPositions at hpos
  split_ifs at hpos with htwo
  · simp only [Prod.mk.injEq] at hpos
    omega
  · simp only [Prod.mk.injEq] at hpos
    obtain ⟨rfl, rfl, -⟩ := hpos
    exact ⟨Nat.mod_lt _ (by omega), Nat.mod_lt _ (by omega)⟩

/-- Posting the blinds always succeeds: a seat pays what it has. -/
theorem start_isOk_iff :
    (∃ h, start level seats dealer = .ok h) ↔ StartChecks level seats dealer := by
  refine ⟨fun ⟨h, hs⟩ => startChecks_of_ok hs, fun hc => ?_⟩
  rcases hpos : (initial level seats dealer).blindPositions with ⟨sb, bb, first⟩
  obtain ⟨hsb, hbb⟩ := blindPositions_lt hpos (initial_size ▸ hc.dealer_lt)
  have hf : ∀ j < (initial level seats dealer).size,
      ((initial level seats dealer).seatAt j).Funded := fun j hj => by
    rw [initial_seatAt (initial_size ▸ hj)]
    exact ⟨by simp, le_rfl⟩
  obtain ⟨s₁, hpays₁, hrun₁⟩ := (hf sb hsb).commit_run level.smallBlind
  have hf₁ := forall_updateSeat hsb hf ((hf sb hsb).pays hpays₁)
  obtain ⟨s₂, -, hrun₂⟩ := (hf₁ bb (size_updateSeat.symm ▸ hbb)).commit_run level.bigBlind
  have hrun : ∃ h, postBlinds.run (initial level seats dealer) = .ok () h := by
    unfold postBlinds
    rw [run_bind, run_get]
    simp only [hpos]
    rw [show (initial level seats dealer).level = level from rfl, run_bind_ok hrun₁,
      run_bind_ok hrun₂]
    exact ⟨_, rfl⟩
  exact hrun.imp fun h => start_of_checks hc

section

variable (hs : start level seats dealer = .ok h)

include hs

theorem postBlinds_of_start :
    postBlinds.run (initial level seats dealer) = .ok () h := by
  unfold start at hs
  split_ifs at hs
  split at hs
  · rename_i hrun
    cases hs
    exact hrun
  · cases hs

/-- The blinds are paid, the big blind maybe from the seat of the small one. -/
theorem start_pays :
    ∃ (h₁ h₂ : HoldemHand) (sb bb first : Nat) (s₁ s₂ : SeatState),
      (initial level seats dealer).blindPositions = (sb, bb, first) ∧ sb < seats.length ∧
      bb < h₁.size ∧ ((initial level seats dealer).seatAt sb).Pays
        (min level.smallBlind.value ((initial level seats dealer).seatAt sb).stack.value) s₁ ∧
      h₁ = ((initial level seats dealer).updateSeat sb fun _ => s₁) ∧
      (h₁.seatAt bb).Pays (min level.bigBlind.value (h₁.seatAt bb).stack.value) s₂ ∧
      h₂ = (h₁.updateSeat bb fun _ => s₂).resetPendingForStreet ∧
      h = { h₂ with nextToAct := h₂.nextPendingFrom first } := by
  have hrun := postBlinds_of_start hs
  rcases hpos : (initial level seats dealer).blindPositions with ⟨sb, bb, first⟩
  obtain ⟨hsb, hbb⟩ := blindPositions_lt hpos (initial_size ▸ (startChecks_of_ok hs).dealer_lt)
  unfold postBlinds at hrun
  rw [run_bind, run_get] at hrun
  simp only [hpos] at hrun
  obtain ⟨_, h₁, hsmall, hrun⟩ := run_bind_eq_ok_iff.mp hrun
  obtain ⟨_, h₂, hbig, hrun⟩ := run_bind_eq_ok_iff.mp hrun
  obtain ⟨s₁, hpays₁, rfl⟩ := commit_eq_ok hsmall
  obtain ⟨s₂, hpays₂, rfl⟩ := commit_eq_ok hbig
  cases hrun
  exact ⟨_, _, sb, bb, first, s₁, s₂, rfl, initial_size ▸ hsb, size_updateSeat.symm ▸ hbb,
    hpays₁, rfl, hpays₂, rfl, rfl⟩

/-- A hand of any level as `start` returns it: two seats may have paid a blind,
and every active seat is pending and may raise. -/
structure HoldemHand.Opened (level : StakeLevel) (seats : List (PlayerId × Chips)) (dealer : Nat)
    (h : HoldemHand) : Prop where
  checks : StartChecks level seats dealer
  level_eq : h.level = level
  dealerIndex : h.dealerIndex = dealer
  street : h.street = .preflop
  roster : (initial level seats dealer).SameRoster h
  funded : ∀ j < h.size, (h.seatAt j).Funded
  marked : ∀ j < h.size, (h.seatAt j).Marked
  committed : ∀ j < h.size, (h.seatAt j).totalCommitted = (h.seatAt j).streetCommitted
  pending : h.pending = h.actionablePlayers none
  raiseRights : h.raiseRights = h.actionablePlayers none
  currentBet : h.currentBet = level.bigBlind
  lastFullRaise : h.lastFullRaise = level.bigBlind
  next : ∃ first, h.nextToAct = h.nextPendingFrom first

/-- What every seat begins with and a payment keeps, the seats of a started hand have. -/
theorem start_forall_seat {good : SeatState → Prop}
    (hinitial : ∀ id stack, good ⟨id, stack, stack, Chips.zero, Chips.zero, .active⟩)
    (hpays : ∀ {s s' n}, good s → s.Pays n s' → good s') : ∀ j < h.size, good (h.seatAt j) := by
  obtain ⟨h₁, h₂, sb, bb, first, s₁, s₂, -, hsb, hbb, hpays₁, rfl, hpays₂, rfl, rfl⟩ :=
    start_pays hs
  rw [← initial_size] at hsb
  have hg : ∀ j < (initial level seats dealer).size,
      good ((initial level seats dealer).seatAt j) := by
    intro j hj
    rw [initial_seatAt (initial_size ▸ hj)]
    exact hinitial _ _
  have hg₁ := forall_updateSeat hsb hg (hpays (hg sb hsb) hpays₁)
  exact forall_updateSeat hbb hg₁ (hpays (hg₁ bb hbb) hpays₂)

theorem start_opened : h.Opened level seats dealer := by
  have hfunded : ∀ j < h.size, (h.seatAt j).Funded :=
    start_forall_seat hs (fun _ _ => ⟨by simp, le_rfl⟩) fun hf hp => hf.pays hp
  have hmarked : ∀ j < h.size, (h.seatAt j).Marked :=
    start_forall_seat hs (fun _ _ => ⟨by simp, fun _ h0 => h0⟩) fun hm hp => hm.pays hp
  -- a payment counts for the street and for the hand alike
  have hcommitted : ∀ j < h.size, (h.seatAt j).totalCommitted = (h.seatAt j).streetCommitted :=
    start_forall_seat hs (fun _ _ => rfl) fun hc hp =>
      Chips.ext (by rw [hp.totalCommitted, hp.streetCommitted, hc])
  obtain ⟨h₁, h₂, sb, bb, first, s₁, s₂, -, hsb, hbb, hpays₁, rfl, hpays₂, rfl, rfl⟩ :=
    start_pays hs
  have hroster := (sameRoster_updateSeat (initial_size ▸ hsb) hpays₁).trans
    (sameRoster_updateSeat hbb hpays₂)
  exact
    { checks := startChecks_of_ok hs, level_eq := rfl, dealerIndex := rfl, street := rfl
      roster := hroster.trans (.of_seats rfl), funded := hfunded, marked := hmarked
      committed := hcommitted, pending := rfl, raiseRights := rfl, currentBet := rfl
      lastFullRaise := rfl, next := ⟨first, rfl⟩ }

end

theorem HoldemHand.Opened.inPlay (ho : h.Opened level seats dealer) : h.InPlay where
  dealer_lt := by
    rw [ho.dealerIndex, ho.roster.size, initial_size]
    exact ho.checks.dealer_lt
  distinct := by
    intro j hj k hk
    rw [ho.roster.size] at hj hk
    rw [ho.roster.idAt j hj, ho.roster.idAt k hk]
    exact initial_distinct ho.checks.distinct j hj k hk
  funded := ho.funded
  marked := ho.marked
  rights := by
    rw [ho.raiseRights, ho.pending]
  pending_active := by
    intro q hq
    rw [ho.pending] at hq
    obtain ⟨j, hj, hid, hactive, -⟩ := mem_actionablePlayers.mp hq
    exact ⟨j, hj, hid, hactive⟩
  next_lt := by
    intro k hk
    obtain ⟨first, hfirst⟩ := ho.next
    exact (nextPendingFrom_eq_some (hfirst.symm.trans hk)).1

/-- A hand that is started has no folded seat. -/
theorem start_contenderSeats (hs : start level seats dealer = .ok h) :
    h.contenderSeats = Finset.range h.size := by
  have hpays : ∀ {s s' : SeatState} {n : Nat}, s.status ≠ .folded → s.Pays n s' →
      s'.status ≠ .folded := by
    intro s s' n hs hpays
    rw [hpays.status]
    split
    · simp
    · exact hs
  ext j
  rw [mem_contenderSeats, Finset.mem_range, and_iff_left_iff_imp]
  exact start_forall_seat hs (by simp) hpays j

end TokenHoldem
