import TokenHoldem.Domain.Reach

/-!
# What an outcome announces

A caller of `act` sees only the outcome that it returns. These are the facts about
the hand that an outcome stands for, whatever hand the action is applied to.

- `act_announces`: the street an outcome names is the street of the hand, and a
  settlement is that of the hand and balances.
- `settleShowdown_keeps_standing`: a showdown changes nobody's status, also when it
  fails.
-/

namespace TokenHoldem

open Library HoldemHand EStateM

variable {h h' : HoldemHand} {out : ActionOutcome} {p : PlayerId} {a : PlayerAction}

/-- The hand is as an outcome says. -/
def HoldemHand.Announces (h : HoldemHand) : ActionOutcome → Prop
  | .waitingFor _ => True
  | .streetAdvanced street _ =>
    h.street = street ∧ (street = .flop ∨ street = .turn ∨ street = .river)
  | .showdownReady => h.street = .showdown ∧ h.nextToAct = none
  | .handComplete settlement => settlement = ⟨h.playerSettlements⟩ ∧ h.totalDelta = 0

/-- A settlement leaves `build_settlement` only through its check. -/
theorem totalDelta_of_buildSettlement {settlement : HoldemSettlement}
    (hrun : buildSettlement.run h = .ok settlement h') :
    h' = h ∧ settlement = ⟨h.playerSettlements⟩ ∧ h.totalDelta = 0 := by
  rw [buildSettlement_run] at hrun
  split at hrun
  · rename_i hzero
    cases hrun
    exact ⟨rfl, rfl, hzero⟩
  · cases hrun

theorem advanceStreetWithin_announces (calls : Nat) {h h' : HoldemHand} {out : ActionOutcome}
    (hrun : (advanceStreetWithin calls).run h = .ok out h') : h'.Announces out := by
  induction calls generalizing h with
  | zero => exact nomatch hrun
  | succ calls ih =>
    rw [advanceStreetWithin, advanceStreetStep, run_bind, run_get] at hrun
    obtain ⟨street, hnext, hrun⟩ := run_orThrow_bind_eq_ok_iff.mp hrun
    rw [run_bind, run_modify] at hrun
    dsimp only at hrun
    split at hrun
    next hshowdown =>
      cases hrun
      exact ⟨hshowdown, rfl⟩
    next hstreet =>
      simp only [run_bind, run_modify, run_get] at hrun
      split at hrun
      · exact ih hrun
      · cases hrun
        rcases Street.next?_cases hnext with rfl | rfl | rfl | rfl
        · exact ⟨rfl, .inl rfl⟩
        · exact ⟨rfl, .inr (.inl rfl)⟩
        · exact ⟨rfl, .inr (.inr rfl)⟩
        · exact absurd rfl hstreet

theorem resolveTurn_announces {i : Nat} (hrun : (resolveTurn i).run h = .ok out h') :
    h'.Announces out := by
  unfold resolveTurn at hrun
  rw [run_bind, run_get] at hrun
  dsimp only at hrun
  split at hrun
  · -- one contender is left
    obtain ⟨settlement, h₁, hfinish, hout⟩ := run_bind_eq_ok_iff.mp hrun
    obtain ⟨_, h₂, -, hbuild⟩ := run_bind_eq_ok_iff.mp hfinish
    obtain ⟨rfl, hsettlement, hzero⟩ := totalDelta_of_buildSettlement hbuild
    cases hout
    exact ⟨hsettlement, hzero⟩
  · split at hrun
    · exact advanceStreetWithin_announces 5 hrun
    · obtain ⟨_, _, -, hrun⟩ := run_bind_eq_ok_iff.mp hrun
      obtain ⟨_, _, -, hrun⟩ := run_bind_eq_ok_iff.mp hrun
      obtain ⟨_, -, hrun⟩ := run_orThrow_bind_eq_ok_iff.mp hrun
      cases hrun
      trivial

theorem act_announces (hrun : (act p a).run h = .ok out h') : h'.Announces out := by
  rcases hnext : h.nextToAct with _ | i
  · rw [act_of_next_eq_none hnext] at hrun
    cases hrun
  · obtain ⟨-, _, -, hresolve⟩ := act_eq_ok hnext hrun
    exact resolveTurn_announces hresolve

theorem settleShowdown_balances {board : Board} {holeCards : HoleCards}
    {settlement : HoldemSettlement}
    (hrun : (settleShowdown board holeCards).run h = .ok settlement h') :
    settlement = ⟨h'.playerSettlements⟩ ∧ h'.totalDelta = 0 := by
  obtain ⟨_, _, _, hbuild⟩ := run_bind_eq_ok_iff.mp hrun
  obtain ⟨rfl, hsettlement, hzero⟩ := totalDelta_of_buildSettlement hbuild
  exact ⟨hsettlement, hzero⟩

/-! ## What a showdown leaves alone -/

section

variable {γ : Type} {f : HoldemHand → γ}

theorem award_keeps (hstack : ∀ h i stack,
      f (h.updateSeat i fun s => { s with stack := stack }) = f h) (winner : PlayerId)
    (amount : Chips) : Keeps f (award winner amount) :=
  .bind .get fun _ => .bind (.orThrow _ _) fun _ => .bind (.orThrow _ _) fun _ =>
    .modify fun h => hstack h _ _

theorem awardEach_keeps (hstack : ∀ h i stack,
      f (h.updateSeat i fun s => { s with stack := stack }) = f h) (amount : Chips)
    (winners : List PlayerId) : Keeps f (awardEach amount winners) := by
  induction winners with
  | nil => exact .pure _
  | cons winner rest ih => exact .bind (award_keeps hstack winner amount) fun _ => ih

theorem settleLayer_keeps (hstack : ∀ h i stack,
      f (h.updateSeat i fun s => { s with stack := stack }) = f h) (contenders : List PlayerId)
    (ranks : PlayerId → HandRank) (previous threshold : Chips) :
    Keeps f (settleLayer contenders ranks previous threshold) := by
  refine .bind .get fun h => .bind (.orThrow _ _) fun pot => ?_
  split
  · split
    · exact award_keeps hstack _ _
    · exact .throw _
  · exact .bind (awardEach_keeps hstack _ _) fun _ => .bind .get fun _ => awardEach_keeps hstack _ _

theorem settleLayers_keeps (hstack : ∀ h i stack,
      f (h.updateSeat i fun s => { s with stack := stack }) = f h) (contenders : List PlayerId)
    (ranks : PlayerId → HandRank) (thresholds : List Chips) :
    ∀ previous, Keeps f (settleLayers contenders ranks previous thresholds) := by
  induction thresholds with
  | nil => exact fun _ => .pure _
  | cons threshold rest ih =>
    exact fun previous => .bind (settleLayer_keeps hstack _ _ _ _) fun _ => ih threshold

/-- A showdown keeps what neither depends on the stacks nor on the street. -/
theorem settleShowdown_keeps (hstack : ∀ h i stack,
      f (h.updateSeat i fun s => { s with stack := stack }) = f h)
    (hstreet : ∀ (h : HoldemHand) street, f { h with street := street } = f h) (board : Board)
    (holeCards : HoleCards) : Keeps f (settleShowdown board holeCards) := by
  refine .bind (.bind .get fun _ => ?_) fun _ => .bind .get fun _ => .ite (.throw _) (.pure _)
  refine .ite (.throw _) (.ite (.throw _) (.ite (.throw _) ?_))
  exact .bind (settleLayers_keeps hstack _ _ _ _) fun _ => .modify fun h => hstreet h _

end

/-- The commitments and statuses of all seats. -/
def HoldemHand.standing (h : HoldemHand) : List (Chips × SeatStatus) :=
  h.seats.map fun s => (s.totalCommitted, s.status)

theorem standing_updateSeat_stack (h : HoldemHand) (i : Nat) (stack : Chips) :
    (h.updateSeat i fun s => { s with stack := stack }).standing = h.standing := by
  apply List.ext_getElem?
  intro n
  simp only [standing, updateSeat, List.getElem?_map, List.getElem?_modify]
  cases h.seats[n]? with
  | none => rfl
  | some s =>
    by_cases hin : i = n <;> simp [hin]

theorem settleShowdown_keeps_standing (board : Board) (holeCards : HoleCards) :
    Keeps standing (settleShowdown board holeCards) :=
  settleShowdown_keeps standing_updateSeat_stack (fun _ _ => rfl) board holeCards

theorem settleShowdown_keeps_nextToAct (board : Board) (holeCards : HoleCards) :
    Keeps (fun h => h.nextToAct) (settleShowdown board holeCards) :=
  settleShowdown_keeps (fun _ _ _ => rfl) (fun _ _ => rfl) board holeCards

end TokenHoldem
