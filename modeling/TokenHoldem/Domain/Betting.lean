import TokenHoldem.Domain.Streets

/-!
# The betting rounds

What holds in a betting round at any level that `start` accepts. Blinds may be
zero or larger than the buy-ins, and a seat may have no chips, but the chips add
up (`Funded`), whoever is asked is an active player, and a call of `act` ends in
one of five ways.

* `applyAction_run` — an action succeeds, or is refused and changes nothing.
* `resolveTurn_of_winner` — what follows an action that leaves one contender.
* `InPlay.act_run` — the five ways in which a call of `act` can end.
-/

namespace TokenHoldem

open Library HoldemHand EStateM

variable {h h' h₁ : HoldemHand} {i : Nat} {p : PlayerId} {a : PlayerAction} {out : ActionOutcome}

/-! ## The chips of a seat -/

/-- The chips of a seat add up to what it started with. -/
structure SeatState.Funded (s : SeatState) : Prop where
  chips : s.stack.value + s.totalCommitted.value = s.startingStack.value
  street_le : s.streetCommitted.value ≤ s.totalCommitted.value

/-- A seat that is all-in has no chips left, and an active one without chips never
had any. -/
structure SeatState.Marked (s : SeatState) : Prop where
  allIn : s.status = .allIn → s.stack = Chips.zero
  active : s.status = .active → s.stack = Chips.zero → s.startingStack = Chips.zero

variable {s s' : SeatState} {n : Nat}

theorem SeatState.Funded.pays (hf : s.Funded) (hp : s.Pays n s') : s'.Funded where
  chips := by
    have := hf.chips
    have := hp.stack
    have := hp.totalCommitted
    rw [hp.startingStack]
    omega
  street_le := by
    have := hf.street_le
    have := hp.streetCommitted
    have := hp.totalCommitted
    omega

theorem SeatState.Marked.pays (hm : s.Marked) (hp : s.Pays n s') : s'.Marked where
  allIn := by
    intro hall
    by_contra hne
    rw [hp.status, if_neg hne] at hall
    have hstack := hp.stack
    rw [hm.allIn hall, Chips.zero_value] at hstack
    exact hne (Chips.ext (by rw [Chips.zero_value]; omega))
  active := by
    intro hactive h0
    rw [hp.status, if_pos h0] at hactive
    cases hactive

/-- What a fold and a payment keep, an action keeps at every seat. -/
theorem ActionEffect.forall_seat {good : SeatState → Prop} (he : ActionEffect h i a h₁)
    (hi : i < h.size) (hfold : ∀ {s}, good s → good { s with status := .folded })
    (hpays : ∀ {s s' n}, good s → s.Pays n s' → good s')
    (hg : ∀ j < h.size, good (h.seatAt j)) : ∀ j < h₁.size, good (h₁.seatAt j) := by
  have ha := he.acted hi
  intro j hj
  rw [ha.size] at hj
  by_cases hji : j = i
  · subst hji
    rcases he.actor_cases hi with ⟨-, hseat⟩ | ⟨-, hseat⟩ | ⟨-, n, pays⟩
    · rw [hseat]
      exact hfold (hg j hj)
    · rw [hseat]
      exact hg j hj
    · exact hpays (hg j hj) pays
  · rw [ha.others j hji]
    exact hg j hj

/-- Only a fold takes an active player out of the hand. -/
theorem ActionEffect.actor_status (he : ActionEffect h i a h') (hi : i < h.size)
    (hactive : (h.seatAt i).status = .active) : (h'.seatAt i).status = .folded ↔ a = .fold := by
  rcases he.actor_cases hi with ⟨rfl, hseat⟩ | ⟨rfl, hseat⟩ | ⟨hne, n, pays⟩
  · simp [hseat]
  · simp [hseat, hactive]
  · rw [pays.status, hactive]
    split <;> simp [hne]

theorem ActionEffect.contenderSeats (he : ActionEffect h i a h') (hi : i < h.size)
    (hactive : (h.seatAt i).status = .active) :
    h'.contenderSeats = if a = .fold then h.contenderSeats.erase i else h.contenderSeats := by
  have ha := he.acted hi
  have hstatus := he.actor_status hi hactive
  ext j
  by_cases hj : j = i
  · subst hj
    split <;> simp_all [ha.size]
  · have : j ∈ h'.contenderSeats ↔ j ∈ h.contenderSeats := by
      simp only [mem_contenderSeats, ha.size, ha.others j hj]
    rw [this]
    split <;> simp [hj]

/-! ## Rejected actions -/

/-- The payment of a seat whose chips add up always goes through. -/
theorem SeatState.Funded.commit_run (hf : (h.seatAt i).Funded) (amount : Chips) :
    ∃ s', (h.seatAt i).Pays (min amount.value (h.seatAt i).stack.value) s' ∧
      (commit i amount).run h = .ok () (h.updateSeat i fun _ => s') := by
  rcases TokenHoldem.commit_run i amount h with hok | ⟨_, _, hover⟩
  · exact hok
  · have := hf.chips
    have := hf.street_le
    have := (h.seatAt i).startingStack.lt
    omega

theorem placeRaise_run (hf : (h.seatAt i).Funded) {target additional minimumTarget : Chips}
    (habove : h.currentBet.value < target.value) :
    ∃ h', (placeRaise i p target additional minimumTarget).run h = .ok () h' := by
  obtain ⟨s', -, hcommit⟩ := hf.commit_run additional
  unfold placeRaise
  rw [run_bind, run_get]
  dsimp only
  rw [run_bind_ok hcommit, run_bind, run_modify]
  dsimp only
  split
  · have hsub : target.checkedSub h.currentBet = some (target.saturatingSub h.currentBet) :=
      Chips.checkedSub_eq_some.mpr (by simp; omega)
    rw [hsub, run_bind, run_orThrow_some]
    exact ⟨_, rfl⟩
  · exact ⟨_, rfl⟩

/-- Why an action may be rejected: never a broken invariant. -/
def ActionRefused (h : HoldemHand) (i : Nat) : PlayerAction → HoldemError → Prop
  | .fold, _ => False
  | .check, e => e = .cannotCheck ∧ (h.seatAt i).streetCommitted ≠ h.currentBet
  | .call, e => e = .nothingToCall ∧ h.currentBet.value ≤ (h.seatAt i).streetCommitted.value
  | .raiseTo _, e => e ≠ .stateInvariant

/-- What `raise_to` checks. -/
def HoldemHand.CanRaiseTo (h : HoldemHand) (i : Nat) (target : Chips) : Prop :=
  h.idAt i ∈ h.raiseRights ∧ h.currentBet.value < target.value ∧
    (h.seatAt i).streetCommitted.value < target.value ∧
    target.value ≤ (h.seatAt i).streetCommitted.value + (h.seatAt i).stack.value ∧
    ∃ minimum, h.minimumTarget = some minimum ∧ (minimum.value ≤ target.value ∨
      target.value = (h.seatAt i).streetCommitted.value + (h.seatAt i).stack.value)

theorem raiseTo_run (hf : (h.seatAt i).Funded) (target : Chips) :
    (h.CanRaiseTo i target ∧ ∃ h₁, (raiseTo i target).run h = .ok () h₁) ∨
    (¬h.CanRaiseTo i target ∧ ∃ e, (raiseTo i target).run h = .error e h ∧
      e ≠ .stateInvariant) := by
  unfold raiseTo CanRaiseTo
  rw [run_bind, run_get]
  dsimp only
  split
  · rename_i hright
    exact .inr ⟨fun hall => hright hall.1, _, rfl, by simp⟩
  rename_i hright
  split
  · exact .inr ⟨fun hall => by omega, _, rfl, by simp⟩
  rename_i habove
  push Not at habove
  have hsub : target.checkedSub (h.seatAt i).streetCommitted =
      some (target.saturatingSub (h.seatAt i).streetCommitted) :=
    Chips.checkedSub_eq_some.mpr (by simp; omega)
  rw [hsub, run_bind, run_orThrow_some]
  dsimp only
  rw [Chips.saturatingSub_value]
  split
  · exact .inr ⟨fun hall => by omega, _, rfl, by simp⟩
  rename_i hrich
  rcases hminimum : h.minimumTarget with _ | minimum
  · exact .inr ⟨by simp, .chipOverflow, by simp, by simp⟩
  rw [run_bind, run_orThrow_some]
  dsimp only
  have hstack : target.saturatingSub (h.seatAt i).streetCommitted = (h.seatAt i).stack ↔
      target.value = (h.seatAt i).streetCommitted.value + (h.seatAt i).stack.value := by
    rw [Chips.ext_iff, Chips.saturatingSub_value]
    omega
  split
  · rename_i hshort
    refine .inr ⟨?_, _, rfl, by simp⟩
    rintro ⟨-, -, -, -, _, ⟨⟩, hfull | hall⟩
    · omega
    · exact hshort.2 (hstack.mpr hall)
  · rename_i henough
    refine .inl ⟨⟨not_not.mp hright, habove.1, habove.2, by omega, minimum, rfl, ?_⟩,
      placeRaise_run hf habove.1⟩
    by_cases hfull : minimum.value ≤ target.value
    · exact .inl hfull
    · exact .inr (hstack.mp (not_not.mp fun hne => henough ⟨by omega, hne⟩))

/-- An action of a seat whose chips add up succeeds, or is refused and changes
nothing. -/
theorem applyAction_run (hf : (h.seatAt i).Funded) (a : PlayerAction) :
    (∃ h₁, (applyAction i (h.idAt i) a).run h = .ok () h₁) ∨
    (∃ e, (applyAction i (h.idAt i) a).run h = .error e h ∧ ActionRefused h i a e) := by
  cases a with
  | fold => exact .inl ⟨_, rfl⟩
  | check =>
    simp only [applyAction, run_bind, run_get]
    split
    · rename_i hne
      exact .inr ⟨_, rfl, rfl, hne⟩
    · exact .inl ⟨_, rfl⟩
  | call =>
    simp only [applyAction, run_bind, run_get]
    split
    · rename_i hzero
      have := congrArg Chips.value hzero
      simp only [Chips.saturatingSub_value, Chips.zero_value] at this
      exact .inr ⟨_, rfl, rfl, by omega⟩
    · obtain ⟨s', -, hcommit⟩ := hf.commit_run
        ((h.currentBet.saturatingSub (h.seatAt i).streetCommitted).least (h.seatAt i).stack)
      exact .inl ⟨_, run_bind_ok hcommit⟩
  | raiseTo target => exact (raiseTo_run hf target).imp And.right And.right

/-! ## Paying the last contender -/

/-- The seats hold what they started with, in the stack or in the pot. -/
theorem total_of_funded (hf : ∀ j < h.size, (h.seatAt j).Funded) :
    h.total (·.stack.value) + h.wagered =
      h.total (·.startingStack.value) := by
  rw [← total_add]
  exact total_congr fun j hj => (hf j hj).chips

/-- The settlement balances when the pot of the seats goes to one of them. -/
theorem totalDelta_of_pot {w : Nat} (hf : ∀ j < h.size, (h.seatAt j).Funded) (hw : w < h.size)
    (hc : h.Credits (fun j => if j = w then h.wagered else 0) h₁) :
    ({ h₁ with street := .complete } : HoldemHand).totalDelta = 0 := by
  rw [totalDelta_eq_zero_iff]
  change h₁.total (·.stack.value) = h₁.total (·.startingStack.value)
  rw [total_stack_of_pot hw hc, hc.sameRoster.total_startingStack, total_of_funded hf]

/-- The last fold: the remaining seat is paid the whole pot, and the settlement
balances, unless its stack cannot hold the pot. -/
theorem resolveTurn_of_winner {w : Nat} (hd : h.DistinctIds)
    (hf : ∀ j < h.size, (h.seatAt j).Funded) (hw : h.contenderSeats = {w}) (i : Nat) :
    (∃ h₂, h.Credits (fun j => if j = w then h.wagered else 0) h₂ ∧
      (resolveTurn i).run h = .ok (.handComplete ⟨h₂.playerSettlements⟩)
        { h₂ with street := .complete }) ∨
    ((resolveTurn i).run h = .error .chipOverflow h ∧
      2 ^ 64 ≤ (h.seatAt w).stack.value + h.wagered) := by
  have hwlt : w < h.size := by
    have : w ∈ h.contenderSeats := by simp [hw]
    exact (mem_contenderSeats.mp this).1
  rw [resolveTurn_of_singleton hw]
  rcases payUncontested_run hd hwlt with ⟨h₂, hc, hrun⟩ | ⟨hrun, hover⟩
  · refine .inl ⟨h₂, hc, ?_⟩
    have hbuild := buildSettlement_run { h₂ with street := .complete }
    rw [if_pos (totalDelta_of_pot hf hwlt hc)] at hbuild
    have hfinish : (finishUncontested (h.idAt w)).run h = _ := (run_bind_ok hrun).trans hbuild
    rw [run_bind_ok hfinish]
    rfl
  · exact .inr ⟨run_bind_error (run_bind_error hrun), hover⟩

/-! ## A betting round -/

/-- What holds of every hand in a betting round. -/
structure HoldemHand.InPlay (h : HoldemHand) : Prop extends h.InTurn where
  funded : ∀ j < h.size, (h.seatAt j).Funded
  marked : ∀ j < h.size, (h.seatAt j).Marked

/-- The hand between an action and what follows it. -/
theorem HoldemHand.InPlay.of_effect (hp : h.InPlay) (hi : i < h.size)
    (he : ActionEffect h i a h₁) : h₁.InPlay where
  toInTurn := hp.toInTurn.of_effect hi he
  funded := he.forall_seat hi (fun hf => ⟨hf.chips, hf.street_le⟩) (fun hf => hf.pays) hp.funded
  marked := he.forall_seat hi (fun _ => ⟨by rintro ⟨⟩, by rintro ⟨⟩⟩) (fun hm => hm.pays) hp.marked

theorem HoldemHand.InPlay.with_next (hp : h.InPlay) {j : Nat} (hj : j < h.size) :
    ({ h with nextToAct := some j } : HoldemHand).InPlay :=
  ⟨hp.toInTurn.with_next hj, hp.funded, hp.marked⟩

section SameChips

variable (hs : h.SameChips h')
include hs

theorem HoldemHand.SameChips.funded (hf : ∀ j < h.size, (h.seatAt j).Funded) :
    ∀ j < h'.size, (h'.seatAt j).Funded := by
  intro j hj
  rw [hs.size] at hj
  obtain ⟨_, hseat, hle⟩ := hs.seat j hj
  rw [hseat]
  exact ⟨(hf j hj).chips, hle.trans (hf j hj).street_le⟩

theorem HoldemHand.SameChips.marked (hm : ∀ j < h.size, (h.seatAt j).Marked) :
    ∀ j < h'.size, (h'.seatAt j).Marked := by
  intro j hj
  rw [hs.size] at hj
  obtain ⟨_, hseat, -⟩ := hs.seat j hj
  rw [hseat]
  exact ⟨(hm j hj).allIn, (hm j hj).active⟩

end SameChips

theorem HoldemHand.InPlay.openStreet (hp : h.InPlay) (street : Street) :
    ({ h with street := street } : HoldemHand).openStreet.InPlay :=
  have hin : ({ h with street := street } : HoldemHand).InTurn :=
    ⟨hp.dealer_lt, hp.distinct, hp.pending_active, hp.rights, hp.next_lt⟩
  ⟨hin.openStreet, (sameChips_openStreet _).funded hp.funded,
    (sameChips_openStreet _).marked hp.marked⟩

/-! ## One call of `act` -/

/-- How a call of `act` in a betting round ends: it is refused and changes
nothing, it leaves one contender whose stack can or cannot hold the pot, it ends
the betting round, or it passes the turn on. -/
inductive ActResult (h : HoldemHand) (p : PlayerId) (a : PlayerAction) :
    Result HoldemError HoldemHand ActionOutcome → Prop
  | refused (e : HoldemError) : ActResult h p a (.error e h)
  | won {i w : Nat} {h₁ h₂ : HoldemHand} (next : h.nextToAct = some i) (actor : h.idAt i = p)
      (applied : (applyAction i (h.idAt i) a).run h = .ok () h₁) (winner : h₁.contenderSeats = {w})
      (credits : h₁.Credits (fun j => if j = w then h₁.wagered else 0) h₂) :
      ActResult h p a (.ok (.handComplete ⟨h₂.playerSettlements⟩) { h₂ with street := .complete })
  | overflown {i w : Nat} {h₁ : HoldemHand} (next : h.nextToAct = some i) (actor : h.idAt i = p)
      (applied : (applyAction i (h.idAt i) a).run h = .ok () h₁) (winner : h₁.contenderSeats = {w})
      (exceeds : 2 ^ 64 ≤ (h₁.seatAt w).stack.value + h₁.wagered) :
      ActResult h p a (.error .chipOverflow h₁)
  | advanced {i : Nat} {h₁ h' : HoldemHand} {out : ActionOutcome} (next : h.nextToAct = some i)
      (actor : h.idAt i = p) (applied : (applyAction i (h.idAt i) a).run h = .ok () h₁)
      (closed : h₁.pending = ∅)
      (advances : Advances h₁ h') (contested : h₁.contenderSeats.card ≠ 1) :
      ActResult h p a (.ok out h')
  | passed {i j : Nat} {h₁ : HoldemHand} (next : h.nextToAct = some i) (actor : h.idAt i = p)
      (applied : (applyAction i (h.idAt i) a).run h = .ok () h₁) (next_lt : j < h₁.size)
      (asked : h₁.idAt j ∈ h₁.pending) (contested : h₁.contenderSeats.card ≠ 1) :
      ActResult h p a (.ok (.waitingFor (h₁.idAt j)) { h₁ with nextToAct := some j })

theorem HoldemHand.InPlay.act_run (hp : h.InPlay) (hs : h.street.IsBetting) (p : PlayerId)
    (a : PlayerAction) : ActResult h p a ((act p a).run h) := by
  rcases hnext : h.nextToAct with _ | i
  · rw [act_of_next_eq_none hnext]
    exact .refused _
  have hi := hp.next_lt i hnext
  rw [act_run_of_next hnext]
  split
  swap
  · exact .refused _
  rename_i hid
  subst hid
  rcases applyAction_run (hp.funded i hi) a with ⟨h₁, happly⟩ | ⟨e, herr, -⟩
  swap
  · rw [run_bind_error herr]
    exact .refused e
  have he := applyAction_eq_ok happly
  have hp₁ := hp.of_effect hi he
  rw [run_bind_ok happly]
  by_cases hone : h₁.contenderSeats.card = 1
  · obtain ⟨w, hw⟩ := Finset.card_eq_one.mp hone
    rcases resolveTurn_of_winner hp₁.distinct hp₁.funded hw i with ⟨h₂, hc, hok⟩ | ⟨herr, hover⟩
    · rw [hok]
      exact .won hnext rfl happly hw hc
    · rw [herr]
      exact .overflown hnext rfl happly hw hover
  · rw [resolveTurn_of_card_ne_one hone]
    split
    · -- nobody is left to act
      rename_i hclosed
      obtain ⟨out, h', hadvance, hadv, -⟩ := advanceStreet_run ((he.acted hi).street.symm ▸ hs)
      rw [hadvance]
      exact .advanced hnext rfl happly hclosed hadv hone
    · rename_i hopen
      obtain ⟨k, hk⟩ := hp₁.toInTurn.next_isSome (Finset.nonempty_iff_ne_empty.mpr hopen)
        ((i + 1) % h₁.size)
      obtain ⟨hklt, hkp⟩ := nextPendingFrom_eq_some hk
      rw [hk]
      exact .passed hnext rfl happly hklt hkp hone

end TokenHoldem
