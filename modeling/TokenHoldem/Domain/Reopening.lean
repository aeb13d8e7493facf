import TokenHoldem.Domain.Calls

/-!
# When the action is reopened

The engine decides at each raise who may raise again, from the chips a seat has
put in on this street and the last full raise. The rule it implements speaks
about the past instead: a player who has acted may raise again once the bet has
grown, since that action, by at least a full raise. `Followed` keeps this past
beside a hand, as the bet that was in force right after each player's last action
on the street, and `raiseRights_iff` is the equivalence.

* `Reopening.of_effect` — one action, full raise and short all-in included;
* `Followed.reopening` — every hand in a betting round.
-/

namespace TokenHoldem

open Library HoldemHand Function EStateM Finset Street

variable {h h' h₁ : HoldemHand} {i : Nat} {p : PlayerId} {a : PlayerAction} {out : ActionOutcome}

/-! ## The history of a street -/

/-- The bet in force right after each player's last action on the street; `none`
for a player who has not acted on it. -/
abbrev History := PlayerId → Option Chips

/-- The history after an action of `p` that led from `h` to `h'`: a new street
forgets it. -/
def History.note (last : History) (p : PlayerId) (h h' : HoldemHand) : History :=
  if h'.street = h.street then update last p (some h'.currentBet) else fun _ => none

/-- The hands that any calls lead to, each with the history of its street. A
failed call counts as an action if it has changed the hand. -/
inductive Followed (level : StakeLevel) (seats : List (PlayerId × Chips)) (dealer : Nat) :
    HoldemHand → History → Prop
  | start {h : HoldemHand} : start level seats dealer = .ok h →
      Followed level seats dealer h fun _ => none
  | acted {h h' : HoldemHand} {last : History} {p : PlayerId} {a : PlayerAction}
      {out : ActionOutcome} : Followed level seats dealer h last →
      (act p a).run h = .ok out h' → Followed level seats dealer h' (last.note p h h')
  | failed {h h' : HoldemHand} {last : History} {p : PlayerId} {a : PlayerAction}
      {e : HoldemError} : Followed level seats dealer h last →
      (act p a).run h = .error e h' →
      Followed level seats dealer h' (if h' = h then last else last.note p h h')
  | settled {h : HoldemHand} {last : History} (board : Board) (holeCards : HoleCards) :
      Followed level seats dealer h last →
      Followed level seats dealer (endState ((settleShowdown board holeCards).run h)) last

variable {level : StakeLevel} {seats : List (PlayerId × Chips)} {dealer : Nat} {last : History}

theorem Followed.called (hf : Followed level seats dealer h last) :
    Called level seats dealer h := by
  induction hf with
  | start hs => exact .start hs
  | @acted _ _ _ p a _ _ hrun ih =>
    have := ih.call (.act p a)
    rwa [endState_perform_act, hrun] at this
  | @failed _ _ _ p a _ _ hrun ih =>
    have := ih.call (.act p a)
    rwa [endState_perform_act, hrun] at this
  | settled board holeCards _ ih =>
    have := ih.call (.settle board holeCards)
    rwa [endState_perform_settle] at this

/-- Every hand has a history. -/
theorem Called.followed (hc : Called level seats dealer h) :
    ∃ last, Followed level seats dealer h last := by
  induction hc with
  | start hs => exact ⟨_, .start hs⟩
  | @call h c _ ih =>
    obtain ⟨last, hf⟩ := ih
    cases c with
    | act p a =>
      rw [endState_perform_act]
      cases hrun : (act p a).run h with
      | ok out h' => exact ⟨_, hf.acted hrun⟩
      | error e h' => exact ⟨_, hf.failed hrun⟩
    | settle board holeCards =>
      rw [endState_perform_settle]
      exact ⟨_, hf.settled board holeCards⟩

/-! ## The size of a raise -/

variable {target : Chips}

theorem raiseTo_minimum (hrun : (raiseTo i target).run h = .ok () h₁) :
    ∃ minimum additional, h.minimumTarget = some minimum ∧
      (placeRaise i (h.idAt i) target additional minimum).run h = .ok () h₁ := by
  unfold raiseTo at hrun
  rw [run_bind, run_get] at hrun
  dsimp only at hrun
  split at hrun
  · cases hrun
  split at hrun
  · cases hrun
  obtain ⟨additional, -, hrun⟩ := run_orThrow_bind_eq_ok_iff.mp hrun
  split at hrun
  · cases hrun
  obtain ⟨minimum, hminimum, hrun⟩ := run_orThrow_bind_eq_ok_iff.mp hrun
  split at hrun
  · cases hrun
  · exact ⟨minimum, additional, hminimum, hrun⟩

/-- The last full raise changes only when a raise reaches the minimum. -/
theorem lastFullRaise_of_applied (hrun : (applyAction i (h.idAt i) a).run h = .ok () h₁) :
    h₁.lastFullRaise = h.lastFullRaise ∨ ∃ minimum target : Chips,
      h.minimumTarget = some minimum ∧ minimum.value ≤ target.value ∧
      h₁.lastFullRaise.value + h.currentBet.value = target.value := by
  cases a with
  | fold =>
    cases hrun
    exact .inl rfl
  | check =>
    simp only [applyAction, run_bind, run_get] at hrun
    split_ifs at hrun
    · cases hrun
    · cases hrun
      exact .inl rfl
  | call =>
    simp only [applyAction, run_bind, run_get] at hrun
    split_ifs at hrun
    · cases hrun
    · obtain ⟨_, t, hcommit, hrun⟩ := run_bind_eq_ok_iff.mp hrun
      obtain ⟨s', -, rfl⟩ := commit_eq_ok hcommit
      cases hrun
      exact .inl rfl
  | raiseTo target =>
    obtain ⟨minimum, additional, hminimum, hplace⟩ := raiseTo_minimum hrun
    obtain ⟨s', -, ⟨hfull, fullRaise, hsum, rfl⟩ | ⟨-, rfl⟩⟩ := placeRaise_eq_ok hplace
    · exact .inr ⟨minimum, target, hminimum, hfull, hsum⟩
    · exact .inl rfl

/-- Before the first bet of a street the last full raise is the big blind, and it
is never smaller. -/
structure HoldemHand.RaiseFloor (h : HoldemHand) : Prop where
  unopened : h.currentBet = Chips.zero → h.lastFullRaise = h.level.bigBlind
  bigBlind_le : h.level.bigBlind.value ≤ h.lastFullRaise.value

theorem HoldemHand.RaiseFloor.le_of_applied (hr : h.RaiseFloor)
    (hrun : (applyAction i (h.idAt i) a).run h = .ok () h₁) :
    h.lastFullRaise.value ≤ h₁.lastFullRaise.value := by
  rcases lastFullRaise_of_applied hrun with hsame | ⟨minimum, target, hminimum, hle, hsum⟩
  · rw [hsame]
  · unfold minimumTarget at hminimum
    split at hminimum
    · rename_i hzero
      cases hminimum
      rw [hr.unopened hzero]
      have := congrArg Chips.value hzero
      simp only [Chips.zero_value] at this
      omega
    · have := Chips.checkedAdd_eq_some.mp hminimum
      omega

/-! ## One action -/

/-- A seat whose player acted last when the bet was `bet`: it has matched that
bet, and if it has to act again it may raise exactly when the bet has grown by a
full raise since. -/
structure HoldemHand.ActedAt (h : HoldemHand) (j : Nat) (bet : Chips) : Prop where
  committed : (h.seatAt j).streetCommitted = bet
  le : bet.value ≤ h.currentBet.value
  rights : h.idAt j ∈ h.pending →
    (h.idAt j ∈ h.raiseRights ↔ bet.value + h.lastFullRaise.value ≤ h.currentBet.value)

/-- The history explains who may raise. -/
structure HoldemHand.Reopening (h : HoldemHand) (last : History) : Prop extends h.RaiseFloor where
  rights : h.raiseRights ⊆ h.pending
  fresh : ∀ j < h.size, (h.seatAt j).status = .active → last (h.idAt j) = none →
    h.idAt j ∈ h.raiseRights
  acted : ∀ j < h.size, (h.seatAt j).status = .active → ∀ bet, last (h.idAt j) = some bet →
    h.ActedAt j bet

/-- What an action has to do with the other seats for the history to stay right. -/
structure HoldemHand.Reopens (h : HoldemHand) (i : Nat) (h₁ : HoldemHand) : Prop where
  matched : (h₁.seatAt i).status = .active → (h₁.seatAt i).streetCommitted = h₁.currentBet
  kept : ∀ j < h.size, j ≠ i → (h.seatAt j).status = .active → h.idAt j ∈ h.raiseRights →
    h.idAt j ∈ h₁.raiseRights
  others : ∀ j < h.size, j ≠ i → (h.seatAt j).status = .active → ∀ bet, h.ActedAt j bet →
    h₁.ActedAt j bet

theorem HoldemHand.Reopening.of_reopens (hr : h.Reopening last) (hp : h.InPlay)
    (hi : i < h.size) (he : ActionEffect h i a h₁) (hfloor : h₁.RaiseFloor) (ho : h.Reopens i h₁) :
    h₁.Reopening (update last (h.idAt i) (some h₁.currentBet)) := by
  have ha := he.acted hi
  have hother : ∀ j < h.size, j ≠ i →
      update last (h.idAt i) (some h₁.currentBet) (h.idAt j) = last (h.idAt j) :=
    fun j hj hji => update_of_ne (fun he => hji (hp.distinct j hj i hi he)) _ _
  refine ⟨hfloor, he.rights_subset hr.rights, ?_, ?_⟩
  · intro j hj hactive hnone
    rw [ha.size] at hj
    rw [ha.idAt] at hnone ⊢
    have hji : j ≠ i := by
      rintro rfl
      rw [update_self] at hnone
      cases hnone
    rw [ha.others j hji] at hactive
    rw [hother j hj hji] at hnone
    exact ho.kept j hj hji hactive (hr.fresh j hj hactive hnone)
  · intro j hj hactive bet hbet
    rw [ha.size] at hj
    rw [ha.idAt] at hbet
    by_cases hji : j = i
    · subst hji
      rw [update_self] at hbet
      cases hbet
      refine ⟨ho.matched hactive, le_rfl, fun hpending => ?_⟩
      -- the actor itself is not asked again
      have hne := (he.pending_active hi hp.distinct hp.pending_active _ hpending).1
      exact absurd (ha.idAt j) hne
    · rw [ha.others j hji] at hactive
      rw [hother j hj hji] at hbet
      exact ho.others j hj hji hactive bet (hr.acted j hj hactive bet hbet)

/-- Folding, checking and calling end the actor's turn and change nothing for the
others. -/
theorem reopens_of_consumed (hd : h.DistinctIds) (hi : i < h.size) (ha : h.Acted i h₁)
    (hmatched : (h₁.seatAt i).status = .active → (h₁.seatAt i).streetCommitted = h₁.currentBet)
    (hbet : h₁.currentBet = h.currentBet) (hraise : h₁.lastFullRaise = h.lastFullRaise)
    (hpending : h₁.pending = h.pending.erase (h.idAt i))
    (hrights : h₁.raiseRights = h.raiseRights.erase (h.idAt i)) : h.Reopens i h₁ := by
  have hne : ∀ j < h.size, j ≠ i → h.idAt j ≠ h.idAt i := fun j hj hji he => hji (hd j hj i hi he)
  refine ⟨hmatched, ?_, ?_⟩
  · intro j hj hji _ hmem
    rw [hrights]
    exact mem_erase.mpr ⟨hne j hj hji, hmem⟩
  · intro j hj hji _ bet hacted
    refine ⟨by rw [ha.others j hji]; exact hacted.committed, hbet ▸ hacted.le, ?_⟩
    rw [ha.idAt, hpending, hrights, hbet, hraise]
    simp only [mem_erase, ne_eq, hne j hj hji, not_false_eq_true, true_and]
    exact hacted.rights

/-- A full raise lets every other active player raise again, and the bet has grown
by the new full raise at least since any of their actions. -/
theorem reopens_of_raiseFull {s' : SeatState} {fullRaise : Chips} (hd : h.DistinctIds)
    (hi : i < h.size) (ha : h.Acted i ((h.raised i s' target).reopenAll (h.idAt i) fullRaise))
    (above : h.currentBet.value < target.value) (reaches : s'.streetCommitted = target)
    (full : fullRaise.value + h.currentBet.value = target.value) :
    h.Reopens i ((h.raised i s' target).reopenAll (h.idAt i) fullRaise) := by
  have hmem : ∀ j < h.size, j ≠ i → (h.seatAt j).status = .active →
      h.idAt j ∈ (h.raised i s' target).actionablePlayers (some (h.idAt i)) := by
    intro j hj hji hactive
    refine mem_actionablePlayers.mpr ⟨j, ha.size.symm ▸ hj, ha.idAt j, ?_, ?_⟩
    · rw [raised_seatAt_of_ne hi hji]
      exact hactive
    · intro he
      exact hji (hd j hj i hi (Option.some.inj he))
  refine ⟨?_, fun j hj hji hactive _ => hmem j hj hji hactive, ?_⟩
  · intro _
    change ((h.raised i s' target).seatAt i).streetCommitted = target
    rw [raised_seatAt_self hi, reaches]
  · intro j hj hji hactive bet hacted
    have hle := hacted.le
    refine ⟨by rw [ha.others j hji]; exact hacted.committed, ?_, fun _ => ?_⟩
    · change bet.value ≤ target.value
      omega
    · rw [ha.idAt]
      refine iff_of_true (hmem j hj hji hactive) ?_
      change bet.value + fullRaise.value ≤ target.value
      omega

theorem mem_rights_reopenBehind {j : Nat} (hd : h.DistinctIds) (hj : j < h.size)
    (hactive : (h.seatAt j).status = .active)
    (hbehind : (h.seatAt j).streetCommitted.value < h.currentBet.value) :
    h.idAt j ∈ h.reopenBehind.raiseRights ↔ h.idAt j ∈ h.raiseRights ∨
      (h.seatAt j).streetCommitted.value + h.lastFullRaise.value ≤ h.currentBet.value := by
  simp only [reopenBehind, mem_union, List.mem_toFinset, List.mem_map, List.mem_filter,
    mem_seatsBehind, decide_eq_true_eq]
  refine or_congr_right ⟨?_, fun hfull => ?_⟩
  · rintro ⟨s, ⟨⟨k, hk, rfl, -, -⟩, hfull⟩, hid⟩
    obtain rfl : k = j := hd k hk j hj hid
    omega
  · exact ⟨h.seatAt j, ⟨⟨j, hj, rfl, hactive, hbehind⟩, by omega⟩, rfl⟩

/-- A short all-in asks everybody behind it again; who has acted may raise if this
all-in, on top of earlier ones, makes up a full raise. -/
theorem reopens_of_raiseShort {s' : SeatState} (hd : h.DistinctIds) (hi : i < h.size)
    (ha : h.Acted i (h.raised i s' target).reopenBehind) (hrights : h.raiseRights ⊆ h.pending)
    (above : h.currentBet.value < target.value) (reaches : s'.streetCommitted = target) :
    h.Reopens i (h.raised i s' target).reopenBehind := by
  have hne : ∀ j < h.size, j ≠ i → h.idAt j ≠ h.idAt i := fun j hj hji he => hji (hd j hj i hi he)
  refine ⟨?_, ?_, ?_⟩
  · intro _
    change ((h.raised i s' target).seatAt i).streetCommitted = target
    rw [raised_seatAt_self hi, reaches]
  · intro j hj hji _ hmem
    exact mem_union_left _ (mem_erase.mpr ⟨hne j hj hji, hmem⟩)
  · intro j hj hji hactive bet hacted
    have hle := hacted.le
    have hseat : (h.raised i s' target).seatAt j = h.seatAt j := raised_seatAt_of_ne hi hji
    have hcommitted := congrArg Chips.value hacted.committed
    refine ⟨by rw [ha.others j hji]; exact hacted.committed, ?_, fun _ => ?_⟩
    · change bet.value ≤ target.value
      omega
    · have hbehind : ((h.raised i s' target).seatAt j).streetCommitted.value < target.value := by
        rw [hseat]
        omega
      have hmem := mem_rights_reopenBehind (h := h.raised i s' target) (ha.distinct hd)
        (raised_size.symm ▸ hj) (by rw [hseat]; exact hactive) hbehind
      change (h.raised i s' target).idAt j ∈ _ ↔ bet.value + h.lastFullRaise.value ≤ target.value
      rw [hmem, hseat, hcommitted]
      change (_ ∨ bet.value + h.lastFullRaise.value ≤ target.value) ↔ _
      -- rights from before the all-in were due to a smaller bet
      refine or_iff_right_of_imp fun hold => ?_
      have hid : (h.raised i s' target).idAt j = h.idAt j := ha.idAt j
      rw [hid] at hold
      have hold : h.idAt j ∈ h.raiseRights := (mem_erase.mp hold).2
      have := (hacted.rights (hrights hold)).mp hold
      omega

theorem HoldemHand.Reopening.of_applied (hr : h.Reopening last) (hp : h.InPlay) (hi : i < h.size)
    (hrun : (applyAction i (h.idAt i) a).run h = .ok () h₁) :
    h₁.Reopening (update last (h.idAt i) (some h₁.currentBet)) := by
  have he := applyAction_eq_ok hrun
  have ha := he.acted hi
  have hraise := hr.toRaiseFloor.le_of_applied hrun
  have hlevel := ha.level
  have hfloor : (h₁.currentBet = Chips.zero → h₁.lastFullRaise = h₁.level.bigBlind) →
      h₁.RaiseFloor := fun hunopened => by
    refine ⟨hunopened, ?_⟩
    rw [hlevel]
    exact hr.bigBlind_le.trans hraise
  have hopened : ∀ {target : Chips}, h.currentBet.value < target.value → target ≠ Chips.zero := by
    rintro target above rfl
    simp at above
  cases he with
  | fold =>
    refine hr.of_reopens hp hi .fold (hfloor hr.unopened)
      (reopens_of_consumed hp.distinct hi ha ?_ rfl rfl rfl rfl)
    have hself : ((h.updateSeat i fun s => { s with status := .folded }).consumeAction
        (h.idAt i)).seatAt i = { h.seatAt i with status := .folded } := seatAt_updateSeat_self hi
    rw [hself]
    rintro ⟨⟩
  | check matched =>
    exact hr.of_reopens hp hi (.check matched) (hfloor hr.unopened)
      (reopens_of_consumed hp.distinct hi ha (fun _ => matched) rfl rfl rfl rfl)
  | @call s' behind pays =>
    refine hr.of_reopens hp hi (.call behind pays) (hfloor hr.unopened)
      (reopens_of_consumed hp.distinct hi ha ?_ rfl rfl rfl rfl)
    have hself : ((h.updateSeat i fun _ => s').consumeAction (h.idAt i)).seatAt i = s' :=
      seatAt_updateSeat_self hi
    rw [hself]
    exact pays.matches_bet behind
  | raiseFull right above pays reaches full gains =>
    exact hr.of_reopens hp hi (.raiseFull right above pays reaches full gains)
      (hfloor fun hzero => absurd hzero (hopened above))
      (reopens_of_raiseFull hp.distinct hi ha above reaches full)
  | raiseShort right above pays reaches allIn gains =>
    exact hr.of_reopens hp hi (.raiseShort right above pays reaches allIn gains)
      (hfloor fun hzero => absurd hzero (hopened above))
      (reopens_of_raiseShort hp.distinct hi ha hr.rights above reaches)

/-! ## Streets -/

/-- On a fresh street everybody who is active may raise. -/
theorem reopening_of_fresh (hfloor : h.RaiseFloor) (hpending : h.pending = h.actionablePlayers none)
    (hrights : h.raiseRights = h.actionablePlayers none) : h.Reopening fun _ => none where
  toRaiseFloor := hfloor
  rights := by rw [hpending, hrights]
  fresh := by
    intro j hj hactive _
    rw [hrights]
    exact mem_actionablePlayers.mpr ⟨j, hj, rfl, hactive, by simp⟩
  acted := by
    intro j _ _ bet hbet
    cases hbet

theorem reopening_openStreet (h : HoldemHand) : h.openStreet.Reopening fun _ => none :=
  reopening_of_fresh ⟨fun _ => rfl, le_rfl⟩ rfl rfl

theorem HoldemHand.Opened.reopening (ho : h.Opened level seats dealer) :
    h.Reopening fun _ => none := by
  refine reopening_of_fresh ⟨fun _ => ?_, ?_⟩ ho.pending ho.raiseRights
  · rw [ho.lastFullRaise, ho.level_eq]
  · rw [ho.lastFullRaise, ho.level_eq]

theorem HoldemHand.Reopening.with_next (hr : h.Reopening last) (next : Option Nat) :
    ({ h with nextToAct := next } : HoldemHand).Reopening last :=
  ⟨⟨hr.unopened, hr.bigBlind_le⟩, hr.rights, hr.fresh, fun j hj hactive bet hbet =>
    ⟨(hr.acted j hj hactive bet hbet).committed, (hr.acted j hj hactive bet hbet).le,
      (hr.acted j hj hactive bet hbet).rights⟩⟩

theorem note_of_street_eq (hstreet : h'.street = h.street) :
    last.note p h h' = update last p (some h'.currentBet) := if_pos hstreet

/-- A call of `act` in a betting round is refused, or the history stays right. -/
theorem ActResult.reopening {r : Result HoldemError HoldemHand ActionOutcome}
    (hresult : ActResult h p a r) (hp : h.InPlay) (hr : h.Reopening last)
    (hs : (endState r).street.IsBetting) :
    (∃ e, r = .error e h) ∨ (endState r).Reopening (last.note p h (endState r)) := by
  cases hresult with
  | refused e => exact .inl ⟨e, rfl⟩
  | won => exact absurd hs (by simp [IsBetting, next?])
  | @overflown i w h₁ hnext hactor happly =>
    have hi := hp.next_lt _ hnext
    right
    rw [endState_error, note_of_street_eq ((applyAction_eq_ok happly).acted hi).street, ← hactor]
    exact hr.of_applied hp hi happly
  | @advanced i h₁ h' out hnext hactor happly _ hadv =>
    have hstreet := ((applyAction_eq_ok happly).acted (hp.next_lt _ hnext)).street
    cases hadv with
    | @opened street _ hleft _ =>
      -- a later street, on which nobody has acted
      right
      have hlater : street ≠ h.street := by
        rintro rfl
        rw [hstreet] at hleft
        exact lt_irrefl _ hleft
      have hnote : last.note p h ({ h₁ with street := street } : HoldemHand).openStreet =
          fun _ => none := if_neg hlater
      rw [endState_ok, hnote]
      exact reopening_openStreet _
    | shown => exact absurd hs (by simp [IsBetting, next?])
    | skipped => exact absurd hs (by simp [IsBetting, next?])
  | @passed i j h₁ hnext hactor happly =>
    have hi := hp.next_lt _ hnext
    have hstreet : ({ h₁ with nextToAct := some j } : HoldemHand).street = h.street :=
      ((applyAction_eq_ok happly).acted hi).street
    right
    rw [endState_ok, note_of_street_eq hstreet, ← hactor]
    exact (hr.of_applied hp hi happly).with_next _

/-- The betting is over for good. -/
theorem Called.betting_of_call (hc : Called level seats dealer h) (c : HandCall)
    (hs : (endState (c.perform.run h)).street.IsBetting) : h.street.IsBetting := by
  cases c with
  | act p a =>
    rw [endState_perform_act] at hs
    rcases h.street.betting_or with hb | hb | hb
    · exact hb
    · rw [act_of_next_eq_none (hc.onCourse.showdown hb)] at hs
      exact hs
    · rw [act_street_complete p a hb] at hs
      exact absurd hs (by decide)
  | settle board holeCards =>
    rw [endState_perform_settle] at hs
    rcases settleShowdown_street board holeCards h with hsame | ⟨-, hshow | hcomplete⟩
    · rwa [hsame] at hs
    · rw [hshow] at hs
      exact absurd hs (by decide)
    · rw [hcomplete] at hs
      exact absurd hs (by decide)

/-- An action that leaves a betting round behind was made in one. -/
theorem Followed.act_result {result : Result HoldemError HoldemHand ActionOutcome}
    (hf : Followed level seats dealer h last) (hrun : (act p a).run h = result)
    (hs : (endState result).street.IsBetting) :
    h.street.IsBetting ∧ h.InPlay ∧ ActResult h p a result := by
  subst hrun
  rw [← endState_perform_act] at hs
  have hb := hf.called.betting_of_call (.act p a) hs
  have hp := hf.called.onCourse.betting hb
  exact ⟨hb, hp, hp.act_run hb p a⟩

theorem Followed.reopening (hf : Followed level seats dealer h last) (hs : h.street.IsBetting) :
    h.Reopening last := by
  induction hf with
  | start hstart => exact (start_opened hstart).reopening
  | @acted h h' last p a out hf hrun ih =>
    obtain ⟨hb, hp, hresult⟩ := hf.act_result hrun hs
    rcases hresult.reopening hp (ih hb) hs with ⟨e, herr⟩ | hr
    · cases herr
    · exact hr
  | @failed h h' last p a e hf hrun ih =>
    obtain ⟨hb, hp, hresult⟩ := hf.act_result hrun hs
    split
    · rename_i hsame
      rw [hsame]
      exact ih hb
    · rename_i hchanged
      rcases hresult.reopening hp (ih hb) hs with ⟨e, herr⟩ | hr
      · cases herr
        exact absurd rfl hchanged
      · exact hr
  | @settled h last board holeCards hf ih =>
    rw [← endState_perform_settle] at hs
    have hb := hf.called.betting_of_call (.settle board holeCards) hs
    rcases settleShowdown_street board holeCards h with hsame | ⟨hshow, -⟩
    · rw [hsame]
      exact ih hb
    · rw [hshow] at hb
      exact absurd hb (by decide)

/-! ## The last full raise within a street -/

/-- The hand after a sequence of calls, failed calls included. -/
def after (calls : List HandCall) (h : HoldemHand) : HoldemHand :=
  calls.foldl (fun h c => endState (c.perform.run h)) h

/-- A call leads to a later street, or stays on the street and does not lower the
last full raise. -/
theorem HoldemHand.Reopening.call (hc : Called level seats dealer h) (hr : h.Reopening last)
    (hs : h.street.IsBetting) (c : HandCall) :
    (endState (c.perform.run h)).street.left < h.street.left ∨
      (endState (c.perform.run h)).street = h.street ∧
        h.lastFullRaise.value ≤ (endState (c.perform.run h)).lastFullRaise.value := by
  have hp := hc.onCourse.betting hs
  have hleft : 0 < h.street.left := by
    revert hs
    cases h.street <;> decide
  cases c with
  | act p a =>
    rw [endState_perform_act]
    have hresult := hp.act_run hs p a
    revert hresult
    generalize (TokenHoldem.act p a).run h = r
    intro hresult
    cases hresult with
    | refused => exact .inr ⟨rfl, le_rfl⟩
    | won => exact .inl hleft
    | overflown hnext _ happly =>
      exact .inr ⟨((applyAction_eq_ok happly).acted (hp.next_lt _ hnext)).street,
        hr.toRaiseFloor.le_of_applied happly⟩
    | advanced hnext _ happly _ hadv =>
      have hstreet := ((applyAction_eq_ok happly).acted (hp.next_lt _ hnext)).street
      left
      cases hadv with
      | opened _ hlater _ => exact hstreet ▸ hlater
      | shown => exact hleft
      | skipped => exact hleft
    | passed hnext _ happly =>
      have hle := hr.toRaiseFloor.le_of_applied happly
      exact .inr ⟨((applyAction_eq_ok happly).acted (hp.next_lt _ hnext)).street, hle⟩
  | settle board holeCards =>
    rw [endState_perform_settle]
    rcases settleShowdown_street board holeCards h with hsame | ⟨hshow, -⟩
    · rw [hsame]
      exact .inr ⟨rfl, le_rfl⟩
    · rw [hshow] at hs
      exact absurd hs (by decide)

theorem Street.left_eq_zero {s : Street} (hs : ¬s.IsBetting) : s.left = 0 := by
  revert hs
  cases s <;> decide

/-- No call leads back to an earlier street. -/
theorem Called.left_le (hc : Called level seats dealer h) (calls : List HandCall) :
    (TokenHoldem.after calls h).street.left ≤ h.street.left := by
  induction calls generalizing h with
  | nil => exact le_rfl
  | cons c rest ih =>
    refine (ih (hc.call c)).trans ?_
    by_cases hs : h.street.IsBetting
    · obtain ⟨last, hf⟩ := hc.followed
      rcases (hf.reopening hs).call hc hs c with hlt | ⟨hstreet, -⟩
      · exact hlt.le
      · rw [hstreet]
    · rw [left_eq_zero fun hb => hs (hc.betting_of_call c hb)]
      exact Nat.zero_le _

/-- As long as the street is the same, the last full raise has not become smaller. -/
theorem Called.lastFullRaise_le (hc : Called level seats dealer h) (hs : h.street.IsBetting)
    (calls : List HandCall) (hsame : (TokenHoldem.after calls h).street = h.street) :
    h.lastFullRaise.value ≤ (TokenHoldem.after calls h).lastFullRaise.value := by
  induction calls generalizing h with
  | nil => exact le_rfl
  | cons c rest ih =>
    obtain ⟨last, hf⟩ := hc.followed
    have hlater := (hc.call c).left_le rest
    change (TokenHoldem.after rest (endState (c.perform.run h))).street = h.street at hsame
    rcases (hf.reopening hs).call hc hs c with hlt | ⟨hstreet, hle⟩
    · rw [hsame] at hlater
      omega
    · exact hle.trans (ih (hc.call c) (hstreet.symm ▸ hs) (hsame.trans hstreet.symm))

/-! ## Who may raise -/

/-- In every betting round a player may raise exactly when the player has to act
and either has not acted on the street or faces a bet that has grown by a full
raise since that player's last action. The last full raise is at least the big blind and
never shrinks within a street. -/
theorem raiseRights_iff (hf : Followed level seats dealer h last) (hs : h.street.IsBetting) :
    (∀ p, p ∈ h.raiseRights ↔ p ∈ h.pending ∧ (last p = none ∨ ∃ bet, last p = some bet ∧
      h.lastFullRaise.value ≤ h.currentBet.value - bet.value)) ∧
    level.bigBlind.value ≤ h.lastFullRaise.value ∧
    ∀ calls, (after calls h).street = h.street →
      h.lastFullRaise.value ≤ (after calls h).lastFullRaise.value := by
  have hp := hf.called.onCourse.betting hs
  have hr := hf.reopening hs
  refine ⟨fun p => ?_, ?_, hf.called.lastFullRaise_le hs⟩
  · constructor
    · intro hright
      have hpending := hr.rights hright
      refine ⟨hpending, ?_⟩
      obtain ⟨j, hj, rfl, hactive⟩ := hp.pending_active p hpending
      cases hlast : last (h.idAt j) with
      | none => exact .inl rfl
      | some bet =>
        have := ((hr.acted j hj hactive bet hlast).rights hpending).mp hright
        exact .inr ⟨bet, rfl, by omega⟩
    · rintro ⟨hpending, hwhy⟩
      obtain ⟨j, hj, rfl, hactive⟩ := hp.pending_active p hpending
      rcases hwhy with hnone | ⟨bet, hlast, hgrown⟩
      · exact hr.fresh j hj hactive hnone
      · have hacted := hr.acted j hj hactive bet hlast
        have := hacted.le
        exact (hacted.rights hpending).mpr (by omega)
  · rw [← hf.called.seatedAt.level_eq]
    exact hr.bigBlind_le

/-- The players of the source's test of consecutive short all-ins. -/
def shortAllIns : List (PlayerId × Chips) :=
  [(player 1, chips 200), (player 2, chips 90), (player 3, chips 120), (player 4, chips 200)]

/-- After a raise to 60, a call and all-ins of 90 and 120 the raiser may raise again:
neither all-in is a full raise, but the bet has grown by 60 since. -/
theorem raiseRights_after_short_all_ins :
    ∃ h last, Followed oneTwoLevel shortAllIns 0 h last ∧
      h.lastFullRaise = chips 58 ∧ player 4 ∈ h.raiseRights ∧
      (player 4 ∈ h.pending ∧ (last (player 4) = none ∨ ∃ bet, last (player 4) = some bet ∧
        h.lastFullRaise.value ≤ h.currentBet.value - bet.value)) := by
  obtain ⟨h, hr, hs, hraise, hright⟩ := exists_reach_of_play oneTwoLevel shortAllIns 0
    [(player 4, .raiseTo (chips 60)), (player 1, .call), (player 2, .raiseTo (chips 90)),
      (player 3, .raiseTo (chips 120))]
    (fun h => h.street.IsBetting ∧ h.lastFullRaise = chips 58 ∧ player 4 ∈ h.raiseRights)
    (by decide +kernel)
  obtain ⟨last, hf⟩ := hr.called.followed
  exact ⟨h, last, hf, hraise, hright, ((raiseRights_iff hf hs).1 (player 4)).mp hright⟩

end TokenHoldem
