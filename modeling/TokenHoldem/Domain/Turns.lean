import TokenHoldem.Domain.Seats

/-!
# Actions and turns

What one action does to a hand. `applyAction_eq_ok` takes a successful action
apart into five cases. `InTurn` collects what the turn order keeps under all of
them, at any level and on any street: pending players are active and a player
who may raise is pending. `Turns` adds what needs blinds in order: an active seat
that is not pending has matched the bet, and no seat is ahead of it.

* `commit_run` — the spec of a payment.
* `applyAction_eq_ok` — inversion of a successful action.
* `InTurn.of_effect`, `ActionEffect.turns` — every successful action keeps both.
-/

namespace TokenHoldem

open Library HoldemHand Finset EStateM Chips

/-! ## Payments -/

/-- `s'` is `s` after it has put `amount` into the pot. -/
structure SeatState.Pays (s : SeatState) (amount : Nat) (s' : SeatState) : Prop where
  playerId : s'.playerId = s.playerId
  startingStack : s'.startingStack = s.startingStack
  stack : s'.stack.value + amount = s.stack.value
  totalCommitted : s'.totalCommitted.value = s.totalCommitted.value + amount
  streetCommitted : s'.streetCommitted.value = s.streetCommitted.value + amount
  status : s'.status = if s'.stack = Chips.zero then .allIn else s.status

variable {h h' : HoldemHand} {i : Nat} {p : PlayerId} {a : PlayerAction} {amount : Chips}

/-- The checked sums of `commit` are its only way to fail: the subtraction is
bounded by the stack. -/
theorem commit_run (i : Nat) (amount : Chips) (h : HoldemHand) :
    (∃ s', (h.seatAt i).Pays (min amount.value (h.seatAt i).stack.value) s' ∧
      (commit i amount).run h = .ok () (h.updateSeat i fun _ => s')) ∨
    ∃ h', (commit i amount).run h = .error .chipOverflow h' ∧
      (2 ^ 64 ≤ (h.seatAt i).totalCommitted.value + min amount.value (h.seatAt i).stack.value ∨
        2 ^ 64 ≤ (h.seatAt i).streetCommitted.value +
          min amount.value (h.seatAt i).stack.value) := by
  set s := h.seatAt i with hs
  have hsub : ∃ stack, s.stack.checkedSub (amount.least s.stack) = some stack :=
    ⟨_, checkedSub_eq_some (c := s.stack.saturatingSub (amount.least s.stack)).mpr (by simp)⟩
  obtain ⟨stack, hstack⟩ := hsub
  rcases htotal : s.totalCommitted.checkedAdd (amount.least s.stack) with _ | total
  · refine .inr ⟨h.updateSeat i fun s => { s with stack := stack }, ?_,
      .inl (by simpa using checkedAdd_eq_none.mp htotal)⟩
    simp [commit, ← hs, hstack, htotal]
  rcases hstreet : s.streetCommitted.checkedAdd (amount.least s.stack) with _ | street
  · refine .inr ⟨(h.updateSeat i fun s => { s with stack := stack }).updateSeat i
      fun s => { s with totalCommitted := total }, ?_,
      .inr (by simpa using checkedAdd_eq_none.mp hstreet)⟩
    simp [commit, ← hs, hstack, htotal, hstreet]
  rw [checkedSub_eq_some] at hstack
  refine .inl ⟨⟨s.playerId, s.startingStack, stack, total, street,
    if stack = Chips.zero then .allIn else s.status⟩, ?_, ?_⟩
  · exact ⟨rfl, rfl, by simpa using hstack, by simpa using checkedAdd_eq_some.mp htotal,
      by simpa using checkedAdd_eq_some.mp hstreet, rfl⟩
  · rw [← checkedSub_eq_some] at hstack
    by_cases h0 : stack = Chips.zero
    · simp only [commit, run_bind, run_get, ← hs, hstack, htotal, hstreet,
        run_orThrow_some, run_modify, h0, if_true, updateSeat_updateSeat]
      congr 1
      exact updateSeat_congr (by simp [← hs])
    · simp only [commit, run_bind, run_get, ← hs, hstack, htotal, hstreet,
        run_orThrow_some, run_modify, h0, if_false, run_pure,
        updateSeat_updateSeat]
      congr 1
      exact updateSeat_congr (by simp [← hs])

/-- A payment that succeeds changes one seat, by `Pays`. -/
theorem commit_eq_ok (hrun : (commit i amount).run h = .ok () h') :
    ∃ s', (h.seatAt i).Pays (min amount.value (h.seatAt i).stack.value) s' ∧
      h' = h.updateSeat i fun _ => s' := by
  rcases commit_run i amount h with ⟨s', hpays, hok⟩ | ⟨_, herr, -⟩
  · rw [hok] at hrun
    cases hrun
    exact ⟨s', hpays, rfl⟩
  · rw [herr] at hrun
    cases hrun

/-! ## One action -/

/-- The hand once a raise to `target` is paid, before the turn order is rebuilt. -/
def HoldemHand.raised (h : HoldemHand) (i : Nat) (s' : SeatState) (target : Chips) : HoldemHand :=
  { (h.updateSeat i fun _ => s').consumeAction (h.idAt i) with currentBet := target }

/-- What a successful action does, one case for each kind of action. -/
inductive ActionEffect (h : HoldemHand) (i : Nat) : PlayerAction → HoldemHand → Prop
  | fold : ActionEffect h i .fold
      ((h.updateSeat i fun s => { s with status := .folded }).consumeAction (h.idAt i))
  | check (matched : (h.seatAt i).streetCommitted = h.currentBet) :
      ActionEffect h i .check (h.consumeAction (h.idAt i))
  | call {s' : SeatState} (behind : (h.seatAt i).streetCommitted.value < h.currentBet.value)
      (pays : (h.seatAt i).Pays
        (min (h.currentBet.value - (h.seatAt i).streetCommitted.value)
          (h.seatAt i).stack.value) s') :
      ActionEffect h i .call ((h.updateSeat i fun _ => s').consumeAction (h.idAt i))
  | raiseFull {s' : SeatState} {target fullRaise : Chips} (right : h.idAt i ∈ h.raiseRights)
      (above : h.currentBet.value < target.value)
      (pays : (h.seatAt i).Pays (target.value - (h.seatAt i).streetCommitted.value) s')
      (reaches : s'.streetCommitted = target)
      (full : fullRaise.value + h.currentBet.value = target.value)
      (gains : (h.seatAt i).streetCommitted.value < target.value) :
      ActionEffect h i (.raiseTo target)
        ((h.raised i s' target).reopenAll (h.idAt i) fullRaise)
  | raiseShort {s' : SeatState} {target : Chips} (right : h.idAt i ∈ h.raiseRights)
      (above : h.currentBet.value < target.value)
      (pays : (h.seatAt i).Pays (target.value - (h.seatAt i).streetCommitted.value) s')
      (reaches : s'.streetCommitted = target) (allIn : s'.stack = Chips.zero)
      (gains : (h.seatAt i).streetCommitted.value < target.value) :
      ActionEffect h i (.raiseTo target) (h.raised i s' target).reopenBehind

theorem placeRaise_eq_ok {target additional minimumTarget : Chips}
    (hrun : (placeRaise i (h.idAt i) target additional minimumTarget).run h = .ok () h') :
    ∃ s', (h.seatAt i).Pays (min additional.value (h.seatAt i).stack.value) s' ∧
      ((minimumTarget.value ≤ target.value ∧ ∃ fullRaise : Chips,
          fullRaise.value + h.currentBet.value = target.value ∧
          h' = (h.raised i s' target).reopenAll (h.idAt i) fullRaise) ∨
        (target.value < minimumTarget.value ∧ h' = (h.raised i s' target).reopenBehind)) := by
  unfold placeRaise at hrun
  rw [run_bind, run_get] at hrun
  obtain ⟨_, t, hcommit, hrun⟩ := run_bind_eq_ok_iff.mp hrun
  obtain ⟨s', hpays, rfl⟩ := commit_eq_ok hcommit
  refine ⟨s', hpays, ?_⟩
  rw [run_bind, run_modify] at hrun
  by_cases hfull : minimumTarget.value ≤ target.value
  · simp only [hfull, if_true] at hrun
    obtain ⟨fullRaise, hsub, hrun⟩ := run_orThrow_bind_eq_ok_iff.mp hrun
    rw [run_modify] at hrun
    cases hrun
    exact .inl ⟨hfull, fullRaise, checkedSub_eq_some.mp hsub, rfl⟩
  · simp only [hfull, if_false, run_modify] at hrun
    cases hrun
    exact .inr ⟨by omega, rfl⟩

theorem raiseTo_eq_ok {target : Chips} (hrun : (raiseTo i target).run h = .ok () h') :
    ActionEffect h i (.raiseTo target) h' := by
  unfold raiseTo at hrun
  rw [run_bind, run_get] at hrun
  dsimp only at hrun
  split at hrun
  · cases hrun
  rename_i hright
  split at hrun
  · cases hrun
  · rename_i hraise
    push Not at hright hraise
    obtain ⟨additional, hsub, hrun⟩ := run_orThrow_bind_eq_ok_iff.mp hrun
    rw [checkedSub_eq_some] at hsub
    split at hrun
    · cases hrun
    rename_i hstack
    obtain ⟨minimumTarget, -, hrun⟩ := run_orThrow_bind_eq_ok_iff.mp hrun
    split_ifs at hrun with hshort
    · cases hrun
    push Not at hstack hshort
    obtain ⟨s', hpays, heffect⟩ := placeRaise_eq_ok hrun
    have hamount : min additional.value (h.seatAt i).stack.value =
        target.value - (h.seatAt i).streetCommitted.value := by omega
    have hreach : s'.streetCommitted = target := by
      have := hpays.streetCommitted
      exact Chips.ext (by omega)
    rcases heffect with ⟨-, fullRaise, hfull, rfl⟩ | ⟨hlt, rfl⟩
    · exact .raiseFull hright hraise.1 (hamount ▸ hpays) hreach hfull hraise.2
    · have hall : additional = (h.seatAt i).stack := hshort hlt
      have hzero : s'.stack = Chips.zero := by
        have := hpays.stack
        rw [hall] at this
        exact Chips.ext (by simp at this ⊢; omega)
      exact .raiseShort hright hraise.1 (hamount ▸ hpays) hreach hzero hraise.2

/-- Inversion of a successful action. -/
theorem applyAction_eq_ok (hrun : (applyAction i (h.idAt i) a).run h = .ok () h') :
    ActionEffect h i a h' := by
  cases a with
  | fold =>
    simp only [applyAction, run_bind, run_modify] at hrun
    cases hrun
    exact .fold
  | check =>
    simp only [applyAction, run_bind, run_get] at hrun
    split_ifs at hrun with hne
    · cases hrun
    · rw [run_modify] at hrun
      cases hrun
      exact .check (not_not.mp hne)
  | call =>
    simp only [applyAction, run_bind, run_get] at hrun
    split_ifs at hrun with hzero
    · cases hrun
    · obtain ⟨_, t, hcommit, hrun⟩ := run_bind_eq_ok_iff.mp hrun
      obtain ⟨s', hpays, rfl⟩ := commit_eq_ok hcommit
      rw [run_modify] at hrun
      cases hrun
      have hbehind : (h.seatAt i).streetCommitted.value < h.currentBet.value := by
        by_contra hle
        exact hzero (Chips.ext (by simp; omega))
      refine .call hbehind ?_
      simpa [min_assoc] using hpays
  | raiseTo target => exact raiseTo_eq_ok hrun

section Raised

variable {s' : SeatState} {target : Chips}

theorem raised_seatAt_self (hi : i < h.size) : (h.raised i s' target).seatAt i = s' :=
  seatAt_updateSeat_self hi

theorem raised_reaches (hi : i < h.size) (reaches : s'.streetCommitted = target) :
    ((h.raised i s' target).seatAt i).streetCommitted = target := by
  rw [raised_seatAt_self hi, reaches]

theorem raised_seatAt_of_ne {j : Nat} (hi : i < h.size) (hj : j ≠ i) :
    (h.raised i s' target).seatAt j = h.seatAt j :=
  seatAt_updateSeat_of_ne hi hj

theorem raised_size : (h.raised i s' target).size = h.size := size_updateSeat

end Raised

/-- The actor's seat after a successful action. -/
theorem ActionEffect.actor_cases (he : ActionEffect h i a h') (hi : i < h.size) :
    (a = .fold ∧ h'.seatAt i = { h.seatAt i with status := .folded }) ∨
    (a = .check ∧ h'.seatAt i = h.seatAt i) ∨
    (a ≠ .fold ∧ ∃ n, (h.seatAt i).Pays n (h'.seatAt i)) := by
  have hpaid : ∀ {s' : SeatState} {n : Nat} {h' : HoldemHand}, h'.seatAt i = s' →
      (h.seatAt i).Pays n s' → ∃ n, (h.seatAt i).Pays n (h'.seatAt i) := by
    rintro s' n h' rfl pays
    exact ⟨n, pays⟩
  cases he with
  | fold => exact .inl ⟨rfl, seatAt_updateSeat_self hi⟩
  | check _ => exact .inr (.inl ⟨rfl, rfl⟩)
  | call _ pays => exact .inr (.inr ⟨by simp, hpaid (seatAt_updateSeat_self hi) pays⟩)
  | raiseFull _ _ pays _ _ => exact .inr (.inr ⟨by simp, hpaid (seatAt_updateSeat_self hi) pays⟩)
  | raiseShort _ _ pays _ _ => exact .inr (.inr ⟨by simp, hpaid (seatAt_updateSeat_self hi) pays⟩)

/-! ## What every action leaves alone -/

/-- A seat after its own action: same player, and chips only move from the stack
into the pot. -/
structure SeatState.Moves (s s' : SeatState) : Prop where
  playerId : s'.playerId = s.playerId
  startingStack : s'.startingStack = s.startingStack
  chips : s'.stack.value + s'.totalCommitted.value = s.stack.value + s.totalCommitted.value
  committed : s.totalCommitted.value ≤ s'.totalCommitted.value

theorem SeatState.Pays.moves {s s' : SeatState} {n : Nat} (hp : s.Pays n s') : s.Moves s' := by
  have := hp.stack
  have := hp.totalCommitted
  exact ⟨hp.playerId, hp.startingStack, by omega, by omega⟩

/-- `h'` is `h` after some action of seat `i`. -/
structure HoldemHand.Acted (h : HoldemHand) (i : Nat) (h' : HoldemHand) : Prop where
  level : h'.level = h.level
  dealerIndex : h'.dealerIndex = h.dealerIndex
  street : h'.street = h.street
  nextToAct : h'.nextToAct = h.nextToAct
  size : h'.size = h.size
  actor : (h.seatAt i).Moves (h'.seatAt i)
  others : ∀ j ≠ i, h'.seatAt j = h.seatAt j

theorem ActionEffect.acted (he : ActionEffect h i a h') (hi : i < h.size) : h.Acted i h' := by
  have key : ∀ {f : SeatState → SeatState} {h' : HoldemHand}, (h.seatAt i).Moves (f (h.seatAt i)) →
      h'.level = h.level → h'.dealerIndex = h.dealerIndex → h'.street = h.street →
      h'.nextToAct = h.nextToAct → h'.seats = (h.updateSeat i f).seats → h.Acted i h' := by
    intro f h' hm h1 h2 h3 h4 h5
    have hat : ∀ j, h'.seatAt j = (h.updateSeat i f).seatAt j := fun j => by
      unfold seatAt
      rw [h5]
    refine ⟨h1, h2, h3, h4, ?_, ?_, fun j hj => ?_⟩
    · rw [HoldemHand.size, h5]
      exact size_updateSeat
    · rw [hat, seatAt_updateSeat_self hi]
      exact hm
    · rw [hat, seatAt_updateSeat_of_ne hi hj]
  cases he with
  | fold => exact key ⟨rfl, rfl, rfl, le_rfl⟩ rfl rfl rfl rfl rfl
  | check _ => exact ⟨rfl, rfl, rfl, rfl, rfl, ⟨rfl, rfl, rfl, le_rfl⟩, fun _ _ => rfl⟩
  | call _ pays => exact key pays.moves rfl rfl rfl rfl rfl
  | raiseFull _ _ pays _ _ => exact key pays.moves rfl rfl rfl rfl rfl
  | raiseShort _ _ pays _ _ => exact key pays.moves rfl rfl rfl rfl rfl

theorem HoldemHand.Acted.idAt (ha : h.Acted i h') (j : Nat) : h'.idAt j = h.idAt j := by
  by_cases hj : j = i
  · rw [hj]
    exact ha.actor.playerId
  · unfold HoldemHand.idAt
    rw [ha.others j hj]

theorem HoldemHand.Acted.sameRoster (ha : h.Acted i h') : h.SameRoster h' := by
  refine ⟨ha.size, fun j _ => ha.idAt j, fun j _ => ?_⟩
  by_cases hj : j = i
  · rw [hj]
    exact ha.actor.startingStack
  · rw [ha.others j hj]

theorem HoldemHand.Acted.distinct (ha : h.Acted i h') (hd : h.DistinctIds) : h'.DistinctIds :=
  ha.sameRoster.distinct hd

/-- An action moves chips of the actor only, so any total of `stack + committed`
stays. -/
theorem HoldemHand.Acted.chips_eq (ha : h.Acted i h') :
    (h'.total fun s => s.stack.value + s.totalCommitted.value) =
      h.total fun s => s.stack.value + s.totalCommitted.value := by
  unfold total
  rw [ha.size]
  refine sum_congr rfl fun j _ => ?_
  by_cases hj : j = i
  · rw [hj]
    exact ha.actor.chips
  · rw [ha.others j hj]

/-- Commitments are never taken back. -/
theorem HoldemHand.Acted.committed_le (ha : h.Acted i h') : h.wagered ≤ h'.wagered := by
  unfold wagered total
  rw [ha.size]
  refine sum_le_sum fun j _ => ?_
  by_cases hj : j = i
  · rw [hj]
    exact ha.actor.committed
  · rw [ha.others j hj]

/-! ## The turn order -/

/-- What the turn order keeps at every level, on every street and after every action. -/
structure HoldemHand.InTurn (h : HoldemHand) : Prop where
  dealer_lt : h.dealerIndex < h.size
  distinct : h.DistinctIds
  pending_active : ∀ p ∈ h.pending, ∃ j < h.size, h.idAt j = p ∧ (h.seatAt j).status = .active
  rights : h.raiseRights ⊆ h.pending
  next_lt : ∀ i, h.nextToAct = some i → i < h.size

section

variable (ht : h.InTurn)
include ht

theorem HoldemHand.InTurn.active (hi : i < h.size) (hp : h.idAt i ∈ h.pending) :
    (h.seatAt i).status = .active := by
  obtain ⟨j, hj, hid, hactive⟩ := ht.pending_active _ hp
  exact ht.distinct j hj i hi hid ▸ hactive

/-- A pending player is found from everywhere. -/
theorem HoldemHand.InTurn.next_isSome (hne : h.pending.Nonempty) (first : Nat) :
    ∃ i, h.nextPendingFrom first = some i := by
  obtain ⟨q, hq⟩ := hne
  obtain ⟨j, hj, rfl, -⟩ := ht.pending_active q hq
  exact nextPendingFrom_isSome first hj hq

/-- The pending players of a hand are contenders. -/
theorem HoldemHand.InTurn.card_pending_le : h.pending.card ≤ h.contenderSeats.card := by
  have hsubset : h.pending ⊆ h.contenderSeats.image h.idAt := by
    intro q hq
    obtain ⟨j, hj, hid, hactive⟩ := ht.pending_active q hq
    exact mem_image.mpr ⟨j, mem_contenderSeats.mpr ⟨hj, by simp [hactive]⟩, hid⟩
  exact (card_le_card hsubset).trans card_image_le

theorem HoldemHand.InTurn.with_next {j : Nat} (hj : j < h.size) :
    ({ h with nextToAct := some j } : HoldemHand).InTurn :=
  ⟨ht.dealer_lt, ht.distinct, ht.pending_active, ht.rights, by rintro k ⟨⟩; exact hj⟩

end

/-- What the bets of a street add to the turn order, where no blind is above the bet. -/
structure HoldemHand.Turns (h : HoldemHand) : Prop extends h.InTurn where
  matched : ∀ j < h.size, (h.seatAt j).status = .active → h.idAt j ∉ h.pending →
    (h.seatAt j).streetCommitted = h.currentBet
  bet_le : ∀ j < h.size, (h.seatAt j).streetCommitted.value ≤ h.currentBet.value

/-- A round starts with every active seat pending, so only the bets already on
the table have to be looked at. -/
theorem HoldemHand.InTurn.turns (ht : h.InTurn) (hall : h.pending = h.actionablePlayers none)
    (hbet : ∀ j < h.size, (h.seatAt j).streetCommitted.value ≤ h.currentBet.value) :
    h.Turns where
  toInTurn := ht
  matched := by
    intro j hj hactive hnp
    rw [hall] at hnp
    exact absurd (mem_actionablePlayers.mpr ⟨j, hj, rfl, hactive, by simp⟩) hnp
  bet_le := hbet

/-- For the seats other than the actor's it is enough to look at the new bet and the
new pending set. -/
theorem HoldemHand.Turns.of_acted (ht : h.Turns) (ha : h.Acted i h') (hin : h'.InTurn)
    (hactor : (h'.seatAt i).status = .active → (h'.seatAt i).streetCommitted = h'.currentBet)
    (hactor_le : (h'.seatAt i).streetCommitted.value ≤ h'.currentBet.value)
    (hbet : h.currentBet.value ≤ h'.currentBet.value)
    (hothers : ∀ j < h.size, j ≠ i → (h.seatAt j).status = .active → h.idAt j ∉ h'.pending →
      (h.seatAt j).streetCommitted = h'.currentBet) : h'.Turns where
  toInTurn := hin
  matched := by
    intro j hj hactive hnp
    rw [ha.size] at hj
    rw [ha.idAt] at hnp
    by_cases hji : j = i
    · subst hji
      exact hactor hactive
    · rw [ha.others j hji] at hactive ⊢
      exact hothers j hj hji hactive hnp
  bet_le := by
    intro j hj
    rw [ha.size] at hj
    by_cases hji : j = i
    · rw [hji]
      exact hactor_le
    · rw [ha.others j hji]
      exact (ht.bet_le j hj).trans hbet

/-- An action that only ends the actor's turn: the bet stays. -/
theorem HoldemHand.Turns.of_consumed (ht : h.Turns) (hi : i < h.size) (ha : h.Acted i h')
    (hin : h'.InTurn)
    (hactor : (h'.seatAt i).status = .active → (h'.seatAt i).streetCommitted = h'.currentBet)
    (hactor_le : (h'.seatAt i).streetCommitted.value ≤ h'.currentBet.value)
    (hbet : h'.currentBet = h.currentBet) (hpending : h'.pending = h.pending.erase (h.idAt i)) :
    h'.Turns := by
  refine ht.of_acted ha hin hactor hactor_le (by rw [hbet]) ?_
  intro j hj hji hactive hnp
  have hne : h.idAt j ≠ h.idAt i := fun he => hji (ht.distinct j hj i hi he)
  rw [hpending, mem_erase, not_and] at hnp
  rw [hbet]
  exact ht.matched j hj hactive (hnp hne)

theorem mem_seatsBehind {s : SeatState} :
    s ∈ h.seatsBehind ↔ ∃ j < h.size, h.seatAt j = s ∧ s.status = .active ∧
      s.streetCommitted.value < h.currentBet.value := by
  simp only [seatsBehind, List.mem_filter, mem_seats_iff, decide_eq_true_eq]
  constructor
  · rintro ⟨⟨j, hj, rfl⟩, hs⟩
    exact ⟨j, hj, rfl, hs⟩
  · rintro ⟨j, hj, rfl, hs⟩
    exact ⟨⟨j, hj, rfl⟩, hs⟩

/-- A caller that is still active had more than the missing amount, and has
matched the bet. -/
theorem SeatState.Pays.matches_bet {s s' : SeatState} {bet : Chips}
    (behind : s.streetCommitted.value < bet.value)
    (pays : s.Pays (min (bet.value - s.streetCommitted.value) s.stack.value) s')
    (hactive : s'.status = .active) : s'.streetCommitted = bet := by
  have hne : s'.stack ≠ Chips.zero := fun h0 => by
    rw [pays.status, if_pos h0] at hactive
    cases hactive
  have hpos : s'.stack.value ≠ 0 := fun h0 => hne (Chips.ext h0)
  have hstack := pays.stack
  have hstreet := pays.streetCommitted
  exact Chips.ext (by omega)

/-- Whoever is asked after an action is another player, whose seat was active. -/
theorem ActionEffect.pending_active (he : ActionEffect h i a h') (hi : i < h.size)
    (hd : h.DistinctIds)
    (hpending : ∀ p ∈ h.pending, ∃ j < h.size, h.idAt j = p ∧ (h.seatAt j).status = .active) :
    ∀ p ∈ h'.pending, p ≠ h.idAt i ∧
      ∃ j < h.size, h.idAt j = p ∧ (h.seatAt j).status = .active := by
  have hconsumed : ∀ p ∈ h.pending.erase (h.idAt i), p ≠ h.idAt i ∧
      ∃ j < h.size, h.idAt j = p ∧ (h.seatAt j).status = .active := fun p hp =>
    ⟨(mem_erase.mp hp).1, hpending p (mem_erase.mp hp).2⟩
  have ha := he.acted hi
  intro p hp
  cases he with
  | fold => exact hconsumed p hp
  | check _ => exact hconsumed p hp
  | call _ _ => exact hconsumed p hp
  | @raiseFull s' target fullRaise right above pays reaches full =>
    obtain ⟨j, hj, rfl, hactive, hne⟩ := mem_actionablePlayers.mp hp
    have hid : (h.raised i s' target).idAt j = h.idAt j := ha.idAt j
    rw [hid] at hne ⊢
    have hne : h.idAt j ≠ h.idAt i := fun he => hne (by rw [he])
    have hji : j ≠ i := fun hji => hne (by rw [hji])
    rw [raised_seatAt_of_ne hi hji] at hactive
    exact ⟨hne, j, raised_size ▸ hj, rfl, hactive⟩
  | @raiseShort s' target right above pays reaches allIn =>
    rcases mem_union.mp hp with hp | hp
    · exact hconsumed p hp
    · obtain ⟨s, hs, rfl⟩ := List.mem_map.mp (List.mem_toFinset.mp hp)
      obtain ⟨j, hj, rfl, hactive, hlt⟩ := mem_seatsBehind.mp hs
      -- the raiser itself has reached the new bet
      have hji : j ≠ i := by
        rintro rfl
        rw [raised_seatAt_self hi, reaches] at hlt
        exact lt_irrefl _ hlt
      rw [raised_seatAt_of_ne hi hji] at hactive ⊢
      have hj : j < h.size := raised_size ▸ hj
      exact ⟨fun he => hji (hd j hj i hi he), j, hj, rfl, hactive⟩

/-- Whoever may raise after an action has to act. -/
theorem ActionEffect.rights_subset (he : ActionEffect h i a h') (hr : h.raiseRights ⊆ h.pending) :
    h'.raiseRights ⊆ h'.pending := by
  have hconsumed := erase_subset_erase (h.idAt i) hr
  cases he with
  | fold => exact hconsumed
  | check _ => exact hconsumed
  | call _ _ => exact hconsumed
  | raiseFull _ _ _ _ _ => exact Subset.refl _
  | raiseShort _ _ _ _ _ =>
    refine union_subset_union hconsumed fun p hp => ?_
    obtain ⟨s, hs, rfl⟩ := List.mem_map.mp (List.mem_toFinset.mp hp)
    exact List.mem_toFinset.mpr (List.mem_map.mpr ⟨s, List.mem_of_mem_filter hs, rfl⟩)

/-- Every successful action keeps the turn order, -/
theorem HoldemHand.InTurn.of_effect (ht : h.InTurn) (hi : i < h.size)
    (he : ActionEffect h i a h') : h'.InTurn where
  dealer_lt := by
    rw [(he.acted hi).dealerIndex, (he.acted hi).size]
    exact ht.dealer_lt
  distinct := (he.acted hi).distinct ht.distinct
  pending_active := by
    intro q hq
    obtain ⟨hne, j, hj, rfl, hactive⟩ := he.pending_active hi ht.distinct ht.pending_active q hq
    have hji : j ≠ i := fun hji => hne (hji ▸ rfl)
    have ha := he.acted hi
    exact ⟨j, ha.size ▸ hj, ha.idAt j, by rw [ha.others j hji]; exact hactive⟩
  rights := he.rights_subset ht.rights
  next_lt := by
    intro k hk
    rw [(he.acted hi).nextToAct] at hk
    exact (he.acted hi).size.symm ▸ ht.next_lt k hk

/-- and takes the actor off it. -/
theorem HoldemHand.InTurn.actor_out (ht : h.InTurn) (hi : i < h.size)
    (he : ActionEffect h i a h') : h'.idAt i ∉ h'.pending := by
  intro hp
  rw [(he.acted hi).idAt] at hp
  exact (he.pending_active hi ht.distinct ht.pending_active _ hp).1 rfl

theorem ActionEffect.turns (he : ActionEffect h i a h') (ht : h.Turns) (hi : i < h.size) :
    h'.Turns := by
  have ha := he.acted hi
  have hin := ht.toInTurn.of_effect hi he
  cases he with
  | fold =>
    have hself : ((h.updateSeat i fun s => { s with status := .folded }).consumeAction
        (h.idAt i)).seatAt i = { h.seatAt i with status := .folded } := seatAt_updateSeat_self hi
    refine ht.of_consumed hi ha hin ?_ ?_ rfl rfl
    · rw [hself]
      rintro ⟨⟩
    · rw [hself]
      exact ht.bet_le i hi
  | check hmatched => exact ht.of_consumed hi ha hin (fun _ => hmatched) (ht.bet_le i hi) rfl rfl
  | @call s' hbehind pays =>
    have hself : ((h.updateSeat i fun _ => s').consumeAction (h.idAt i)).seatAt i = s' :=
      seatAt_updateSeat_self hi
    have hstreet := pays.streetCommitted
    refine ht.of_consumed hi ha hin ?_ ?_ rfl rfl
    · rw [hself]
      exact pays.matches_bet hbehind
    · rw [hself]
      change _ ≤ h.currentBet.value
      omega
  | @raiseFull s' target fullRaise right above pays reaches full =>
    have hbet := raised_reaches hi reaches
    refine ht.of_acted ha hin (fun _ => hbet) (congrArg value hbet).le above.le ?_
    intro j hj hji hactive hnp
    refine absurd (mem_actionablePlayers.mpr ⟨j, ha.size.symm ▸ hj, ha.idAt j, ?_, ?_⟩) hnp
    · rw [ha.others j hji]
      exact hactive
    · intro he
      exact hji (ht.distinct j hj i hi (Option.some.inj he))
  | @raiseShort s' target right above pays reaches allIn =>
    have hbet := raised_reaches hi reaches
    refine ht.of_acted ha hin (fun _ => hbet) (congrArg value hbet).le above.le ?_
    intro j hj hji hactive hnp
    exfalso
    refine hnp (mem_union_right _ (List.mem_toFinset.mpr (List.mem_map.mpr
      ⟨(h.raised i s' target).seatAt j, mem_seatsBehind.mpr
        ⟨j, raised_size.symm ▸ hj, rfl, ?_, ?_⟩, ha.idAt j⟩)))
    · rw [raised_seatAt_of_ne hi hji]
      exact hactive
    · rw [raised_seatAt_of_ne hi hji]
      exact (ht.bet_le j hj).trans_lt above

end TokenHoldem
