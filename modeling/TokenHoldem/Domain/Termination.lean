import Mathlib.Tactic.Ring
import TokenHoldem.Domain.Phases

/-!
# Betting terminates

No single counter goes down with every action: a full raise makes the whole
table pending again, a new street does the same, and a hand that was won by
folds pays its pot back into a stack while its last folder is still on turn.
`actsLeft` weighs these against each other:

* streets ahead and chips behind count for a whole round of turns each, so that
  a raise or a new street pays for the turns it gives back (`turnsLeft`);
* a betting round also counts the turns that can follow its end (`turnsAfter`).

`Phase.actsLeft_lt` shows that every successful `act` lowers it, in every phase
of a hand whose blinds put a chip into the pot (`Staked`). With an empty pot a hand
won by folds can be won again, without end. `advance_street` itself calls itself at
most once for each street that is left.
-/

namespace TokenHoldem

open Library HoldemHand Finset EStateM

variable {h h' h₁ : HoldemHand} {i : Nat} {p : PlayerId} {a : PlayerAction} {out : ActionOutcome}

/-! ## The measure -/

/-- The chips that can still be bet. -/
def HoldemHand.behind (h : HoldemHand) : Nat := h.total (·.stack.value)

/-- Turns of the hand while the chips only move into the pot. -/
def HoldemHand.turnsLeft (h : HoldemHand) : Nat :=
  (h.street.left + h.behind) * (h.size + 1) + h.pending.card

/-- Turns that can follow once a hand is won by folds: one of the last folder, and
those of a table that holds all chips it started with. -/
def HoldemHand.turnsAfter (h : HoldemHand) : Nat :=
  h.total (·.startingStack.value) * (h.size + 1) + h.size + 1

/-- A bound on the number of further actions. -/
def HoldemHand.actsLeft (h : HoldemHand) : Nat :=
  match h.nextToAct with
  | none => 0
  | some i =>
    if h.street.IsBetting then h.turnsLeft + h.turnsAfter
    else if h.idAt i ∈ h.pending then h.turnsLeft
    else h.turnsAfter

theorem HoldemHand.InTurn.card_pending_le_size (ht : h.InTurn) : h.pending.card ≤ h.size :=
  ht.card_pending_le.trans ((card_le_card (filter_subset _ _)).trans_eq (card_range _))

theorem HoldemHand.SameRoster.turnsAfter_eq (hs : h.SameRoster h') :
    h'.turnsAfter = h.turnsAfter := by
  unfold turnsAfter
  rw [hs.total_startingStack, hs.size]

/-- Chips or streets that are used up pay for a whole table of pending players. -/
theorem turnsLeft_lt_of_lt (ht : h'.InTurn) (hsize : h'.size = h.size)
    (hlt : h'.street.left + h'.behind < h.street.left + h.behind) : h'.turnsLeft < h.turnsLeft := by
  have hcard := ht.card_pending_le_size
  have hround : (h'.street.left + h'.behind + 1) * (h.size + 1) ≤
      (h.street.left + h.behind) * (h.size + 1) := Nat.mul_le_mul_right _ hlt
  unfold turnsLeft
  rw [Nat.add_mul] at hround
  rw [hsize] at hcard ⊢
  omega

/-! ## One action -/

theorem HoldemHand.Acted.behind_le (ha : h.Acted i h₁) : h₁.behind ≤ h.behind := by
  have hchips := ha.chips_eq
  have hcommitted := ha.committed_le
  rw [total_add, total_add] at hchips
  unfold wagered at hcommitted
  unfold behind
  omega

/-- A payment leaves the seat's stack that much smaller. -/
theorem behind_updateSeat_of_pays {n : Nat} {s' : SeatState} (hi : i < h.size)
    (hpays : (h.seatAt i).Pays n s') : (h.updateSeat i fun _ => s').behind + n = h.behind := by
  have htotal := total_updateSeat (f := fun _ => s') hi (·.stack.value)
  have hstack := hpays.stack
  unfold behind
  omega

/-- An action of a pending player takes it off the pending players or chips off
its stack. -/
theorem ActionEffect.erases_or_pays (he : ActionEffect h i a h₁) (hi : i < h.size) :
    h₁.pending = h.pending.erase (h.idAt i) ∨ h₁.behind < h.behind := by
  have hraise : ∀ {s' : SeatState} {target : Chips},
      (h.seatAt i).streetCommitted.value < target.value →
      (h.seatAt i).Pays (target.value - (h.seatAt i).streetCommitted.value) s' →
      (h.updateSeat i fun _ => s').behind < h.behind := by
    intro s' target hgains hpays
    have hpaid := behind_updateSeat_of_pays hi hpays
    omega
  cases he with
  | fold => exact .inl rfl
  | check => exact .inl rfl
  | call => exact .inl rfl
  | raiseFull _ _ pays _ _ gains => exact .inr (hraise gains pays)
  | raiseShort _ _ pays _ _ gains => exact .inr (hraise gains pays)

theorem ActionEffect.turnsLeft_lt (he : ActionEffect h i a h₁) (ht : h.InTurn) (hi : i < h.size)
    (hp : h.idAt i ∈ h.pending) : h₁.turnsLeft < h.turnsLeft := by
  have ha := he.acted hi
  have hle := ha.behind_le
  rcases he.erases_or_pays hi with hpending | hlt
  · have hcard : h₁.pending.card + 1 = h.pending.card := by
      rw [hpending]
      exact card_erase_add_one hp
    have hround : (h₁.street.left + h₁.behind) * (h₁.size + 1) ≤
        (h.street.left + h.behind) * (h.size + 1) := by
      rw [ha.street, ha.size]
      exact Nat.mul_le_mul_right _ (by omega)
    unfold turnsLeft
    omega
  · refine turnsLeft_lt_of_lt (ht.of_effect hi he) ha.size ?_
    rw [ha.street]
    omega

/-! ## One street -/

/-- Totals that do not look at the bets of a street survive its end. -/
theorem HoldemHand.SameChips.total_eq (hs : h.SameChips h') {f : SeatState → Nat}
    (hf : ∀ s street, f { s with streetCommitted := street } = f s) : h'.total f = h.total f := by
  unfold total
  rw [hs.size]
  refine sum_congr rfl fun j hj => ?_
  obtain ⟨street, hseat, -⟩ := hs.seat j (mem_range.mp hj)
  rw [hseat, hf]

/-- After an action the turn is passed on, or the street is left. -/
theorem Resolved.turnsLeft_le (hr : Resolved h out h') (ht : h'.InTurn)
    (hs : h'.street.IsBetting) : h'.turnsLeft ≤ h.turnsLeft := by
  cases hr with
  | won => exact absurd hs (by simp [Street.IsBetting, Street.next?])
  | advanced _ hadv =>
    have hsame := hadv.sameChips
    have hbehind : h'.behind = h.behind := hsame.total_eq fun _ _ => rfl
    refine (turnsLeft_lt_of_lt ht hsame.size ?_).le
    cases hadv with
    | opened _ hlt _ =>
      simp only [openStreet_street]
      omega
    | shown => exact absurd hs (by simp [Street.IsBetting, Street.next?])
    | skipped => exact absurd hs (by simp [Street.IsBetting, Street.next?])
  | passed => exact le_rfl

/-! ## Every phase -/

/-- The pot holds a chip, and once the hand is complete it has been paid. -/
structure HoldemHand.Staked (h : HoldemHand) : Prop where
  pot_pos : 0 < h.wagered
  surplus : h.street = .complete → h.Surplus

theorem HoldemHand.Staked.act_ok (hst : h.Staked) (hph : h.Phase)
    (hrun : (act p a).run h = .ok out h') : h'.Staked := by
  obtain ⟨i, h₁, hnext, hi, he, -, hresolved⟩ := hph.act_resolved hrun
  have ha := he.acted hi
  have hpos : 0 < h₁.wagered := hst.pot_pos.trans_le ha.committed_le
  cases hresolved with
  | @won w h₂ hw hf hc =>
    have hpot := hc.total_committed
    refine ⟨hpot.symm ▸ hpos, fun _ => ?_⟩
    change h₂.total (·.startingStack.value) <
      h₂.total (·.stack.value) + h₂.wagered
    rw [hpot, total_stack_of_pot (winner_lt hw) hc, hc.sameRoster.total_startingStack,
      total_of_funded hf]
    omega
  | advanced _ hadv =>
    have hpot : h'.wagered = h₁.wagered :=
      hadv.sameChips.total_eq fun _ _ => rfl
    refine ⟨hpot.symm ▸ hpos, fun hcomplete => ?_⟩
    cases hadv with
    | @opened street hb _ _ =>
      have hcomplete : street = .complete := hcomplete
      rw [hcomplete] at hb
      exact absurd hb (by decide)
    | shown => cases hcomplete
    | skipped => cases hcomplete
  | passed =>
    exact ⟨hpos, fun hcomplete => ha.surplus_iff.mpr (hst.surplus (ha.street.symm.trans hcomplete))⟩

theorem HoldemHand.Round.actsLeft_le (hr : h.Round) : h.actsLeft ≤ h.turnsLeft + h.turnsAfter := by
  unfold actsLeft
  split
  · exact Nat.zero_le _
  · rw [if_pos hr.street]

/-- A completed hand holds on its stacks at most what it started with. -/
theorem HoldemHand.OnTurn.turnsLeft_lt (ho : h.OnTurn i) : h.turnsLeft < h.turnsAfter := by
  have hcard := ho.toInTurn.card_pending_le_size
  have hround := Nat.mul_le_mul_right (h.size + 1) ho.stacks_le
  unfold turnsLeft turnsAfter behind
  rw [ho.street, show Street.complete.left = 0 from rfl, Nat.zero_add]
  omega

theorem HoldemHand.OnTurn.actsLeft_eq (ho : h.OnTurn i) :
    h.actsLeft = if h.idAt i ∈ h.pending then h.turnsLeft else h.turnsAfter := by
  have hstreet : ¬h.street.IsBetting := by rw [ho.street]; decide
  simp only [actsLeft, ho.next, if_neg hstreet]

/-- Every successful action lowers `actsLeft`. -/
theorem HoldemHand.Phase.actsLeft_lt (hph : h.Phase) (hst : h.Staked)
    (hrun : (act p a).run h = .ok out h') : h'.actsLeft < h.actsLeft := by
  have hph' := hph.act_ok hrun
  obtain ⟨i, h₁, hnext, hi, he, hs₁, hresolved⟩ := hph.act_resolved hrun
  have ha := he.acted hi
  cases hph with
  | round hr =>
    have hlt := he.turnsLeft_lt hr.toInTurn hi (hr.asked i hnext)
    have hafter := (ha.sameRoster.trans hresolved.sameRoster).turnsAfter_eq
    have heq : h.actsLeft = h.turnsLeft + h.turnsAfter := by
      simp only [actsLeft, hnext, if_pos hr.street]
    rw [heq, ← hafter]
    cases hph' with
    | round hr' =>
      have hle := hresolved.turnsLeft_le hr'.toInTurn hr'.street
      have hacts := hr'.actsLeft_le
      omega
    | showdown hs =>
      simp only [actsLeft, hs.next]
      omega
    | settled hs =>
      simp only [actsLeft, hs.next]
      omega
    | onTurn ho =>
      have hless := ho.turnsLeft_lt
      rw [ho.actsLeft_eq]
      split <;> omega
  | showdown hs => simp [hs.next] at hnext
  | settled hs => simp [hs.next] at hnext
  | onTurn ho =>
    obtain rfl := Option.some.inj (ho.next.symm.trans hnext)
    cases hresolved with
    | won _ hf _ =>
      -- the pot has been paid, so it cannot be paid again
      have hsurplus := ha.surplus_iff.mpr (hst.surplus ho.street)
      exact absurd (total_of_funded hf).le (not_le.mpr hsurplus)
    | advanced hb => exact absurd (ha.street.trans ho.street ▸ hb) (by decide)
    | passed hlt hasked =>
      -- no street opens any more, so the turns of this one are all that is left
      have ho' := ho.passed he hlt hasked
      rw [ho'.actsLeft_eq.trans (if_pos hasked), ho.actsLeft_eq]
      split
      · exact he.turnsLeft_lt ho.toInTurn hi ‹_›
      · have hafter : h₁.turnsAfter = h.turnsAfter := ha.sameRoster.turnsAfter_eq
        exact ho'.turnsLeft_lt.trans_eq hafter

/-- A sequence of successful actions is no longer than `actsLeft`. -/
theorem HoldemHand.Phase.length_le_actsLeft {actions : List (PlayerId × PlayerAction)}
    (hph : h.Phase) (hst : h.Staked) (hrun : (playActions actions).run h = .ok () h') :
    actions.length ≤ h.actsLeft := by
  induction actions generalizing h with
  | nil => exact Nat.zero_le _
  | cons step rest ih =>
    obtain ⟨_, h₁, hact, hrest⟩ := run_bind_eq_ok_iff.mp hrun
    have hlt := hph.actsLeft_lt hst hact
    have hle := ih (hph.act_ok hact) (hst.act_ok hph hact) hrest
    rw [List.length_cons]
    omega

/-! ## Started hands -/

/-- How many actions a hand with these starting stacks can take. -/
def actionBound (buyIns : List Chips) : Nat :=
  (2 * (buyIns.map Chips.value).sum + 6) * (buyIns.length + 1)

theorem HoldemHand.Round.actsLeft_le_actionBound (hr : h.Round) :
    h.actsLeft ≤ actionBound (h.roster.map Prod.snd) := by
  have hbuyIns : ((h.roster.map Prod.snd).map Chips.value).sum =
      h.total (·.startingStack.value) := by
    rw [← sum_roster_eq, List.map_map]
    rfl
  have hlength : (h.roster.map Prod.snd).length = h.size := by
    simp [roster]
  have hcard := hr.toInTurn.card_pending_le_size
  have hleft : h.street.left ≤ 4 := by cases h.street <;> decide
  have hbehind : h.behind ≤ h.total (·.startingStack.value) :=
    (Nat.le_add_right _ _).trans_eq (total_of_funded hr.funded)
  have hround : (h.street.left + h.behind) * (h.size + 1) ≤
      (4 + h.total (·.startingStack.value)) * (h.size + 1) :=
    Nat.mul_le_mul_right _ (by omega)
  rw [actionBound, hbuyIns, hlength]
  calc h.actsLeft ≤ h.turnsLeft + h.turnsAfter := hr.actsLeft_le
    _ ≤ (4 + h.total (·.startingStack.value)) * (h.size + 1) + (h.size + 1) +
        (h.total (·.startingStack.value) * (h.size + 1) + (h.size + 1)) := by
      unfold turnsLeft turnsAfter
      omega
    _ = _ := by ring

/-- The recursion of `advance_street` unfolded as often as there are streets left:
what would be called then is never called. -/
theorem advanceStreetStep_iterate (last : HandM ActionOutcome) : ∀ (n : Nat) (h : HoldemHand),
    h.street.left < n → (advanceStreetStep^[n] last).run h = advanceStreet.run h := by
  intro n
  induction n with
  | zero =>
    intro h hlt
    omega
  | succ n ih =>
    intro h hlt
    rw [Function.iterate_succ_apply', advanceStreet_eq]
    exact advanceStreetStep_congr fun g hg => ih g (by omega)

/-- Betting terminates where the blinds put a chip into the pot: the number of
successful `act` calls on a started hand is bounded by its stacks and seats, and in
each call `advance_street` calls itself at most once for each street that is left. -/
theorem betting_terminates (level : StakeLevel) (seats : List (PlayerId × Chips)) (dealer : Nat)
    {h : HoldemHand} (hstart : start level seats dealer = .ok h)
    (hpot : 0 < h.wagered) :
    (∀ actions h', (playActions actions).run h = .ok () h' →
      actions.length ≤ actionBound (seats.map Prod.snd)) ∧
    ∀ (h' : HoldemHand) (last : HandM ActionOutcome) (calls : Nat), h'.street.left < calls →
      (advanceStreetStep^[calls] last).run h' = advanceStreet.run h' := by
  have ho := start_opened hstart
  have hr := round_of_start hstart
  have hst : h.Staked :=
    ⟨hpot, fun hcomplete => absurd (ho.street.symm.trans hcomplete) (by decide)⟩
  constructor
  · intro actions h' hrun
    calc actions.length ≤ h.actsLeft := (Phase.round hr).length_le_actsLeft hst hrun
      _ ≤ actionBound (h.roster.map Prod.snd) := hr.actsLeft_le_actionBound
      _ = actionBound (seats.map Prod.snd) := by rw [ho.seatedAt.roster]
  · intro h' last calls hcalls
    exact advanceStreetStep_iterate last calls h' hcalls

/-- What a started hand and a list of actions lead to, as in `play`. -/
theorem exists_start_of_play (level : StakeLevel) (seats : List (PlayerId × Chips)) (dealer : Nat)
    (actions : List (PlayerId × PlayerAction)) (P : HoldemHand → HoldemHand → Prop)
    [∀ h h', Decidable (P h h')]
    (hp : (match start level seats dealer with
      | .error _ => false
      | .ok h => match (playActions actions).run h with
        | .ok _ h' => decide (P h h')
        | .error _ _ => false) = true) :
    ∃ h h', start level seats dealer = .ok h ∧ (playActions actions).run h = .ok () h' ∧
      P h h' := by
  split at hp
  · cases hp
  · rename_i h hstart
    split at hp
    · rename_i h' hrun
      exact ⟨h, h', hstart, hrun, of_decide_eq_true hp⟩
    · cases hp

/-- Three players, one of them all-in, see the showdown after four actions. -/
theorem betting_terminates_three_stacks :
    ∃ h, start oneTwoLevel threeStacks 0 = .ok h ∧ ∃ h',
      (playActions [(player 1, .raiseTo (chips 40)), (player 2, .call),
        (player 3, .raiseTo (chips 100)), (player 2, .call)]).run h = .ok () h' ∧
      4 ≤ actionBound (threeStacks.map Prod.snd) ∧
      (advanceStreetStep^[1] (throw .stateInvariant)).run h' = advanceStreet.run h' := by
  obtain ⟨h, h', hstart, hrun, hpot, hstreet⟩ := exists_start_of_play
    oneTwoLevel threeStacks 0 [(player 1, .raiseTo (chips 40)), (player 2, .call),
      (player 3, .raiseTo (chips 100)), (player 2, .call)]
    (fun h h' => 0 < h.wagered ∧ h'.street = .showdown)
    (by decide +kernel)
  have hends := betting_terminates oneTwoLevel threeStacks 0 hstart hpot
  exact ⟨h, hstart, h', hrun, hends.1 _ h' hrun, hends.2 h' _ 1 (by rw [hstreet]; decide)⟩

/-- The level of blinds 1 and 2 without its blinds. -/
def freeLevel : StakeLevel :=
  { oneTwoLevel.toStakeLevel with smallBlind := Chips.zero, bigBlind := Chips.zero }

/-- Without blinds the player who has folded can go on folding: each time the empty
pot is paid again and `act` succeeds. -/
theorem folds_without_end :
    ∃ h, start freeLevel headsUp 0 = .ok h ∧ ∀ n, ∃ h',
      (playActions (List.replicate (n + 1) (player 1, .fold))).run h = .ok () h' := by
  obtain ⟨h, h₁, hstart, hfirst, out, h₂, hagain, hsame⟩ := exists_start_of_play
    freeLevel headsUp 0 [(player 1, .fold)]
    (fun _ h₁ => ∃ out h₂, (act (player 1) .fold).run h₁ = .ok out h₂ ∧ h₂ = h₁)
    (by decide +kernel)
  subst hsame
  obtain ⟨_, _, hact, hnil⟩ := run_bind_eq_ok_iff.mp hfirst
  cases hnil
  refine ⟨h, hstart, fun n => ⟨h₂, (run_bind_ok hact).trans ?_⟩⟩
  induction n with
  | zero => rfl
  | succ n ih => exact (run_bind_ok hagain).trans ih

end TokenHoldem
