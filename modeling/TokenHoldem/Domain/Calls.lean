import TokenHoldem.Domain.Announced

/-!
# Hands under any calls

`Reach` follows the successful calls on a hand. `Called` also follows it through
the calls that fail, in the state in which they leave it: a fold that makes the
last contender's stack overflow leaves a trace. What a betting round keeps
(`InPlay`) and the table itself (`SeatedAt`) survive such calls as well.

* `Called.seatedAt` — the table at which a hand is played never changes.
* `Called.onCourse` — every hand in a betting round is `InPlay`.
* `rejected_act_unchanged` — a rejected action has changed nothing.
-/

namespace TokenHoldem

open Library HoldemHand List EStateM

variable {h h' : HoldemHand} {level : StakeLevel} {seats : List (PlayerId × Chips)} {dealer : Nat}
  {p : PlayerId} {a : PlayerAction}

/-! ## Calls -/

/-- A call of one of the two methods that change a hand. -/
inductive HandCall where
  | act (player : PlayerId) (action : PlayerAction)
  | settle (board : Board) (holeCards : HoleCards)

/-- What a successful call returns. -/
inductive HandReply where
  | outcome (out : ActionOutcome)
  | settlement (settlement : HoldemSettlement)

def HandCall.perform : HandCall → HandM HandReply
  | .act player action => do return .outcome (← TokenHoldem.act player action)
  | .settle board holeCards => do return .settlement (← settleShowdown board holeCards)

/-- The hands that `start` and any further calls lead to, failed calls included. -/
inductive Called (level : StakeLevel) (seats : List (PlayerId × Chips)) (dealer : Nat) :
    HoldemHand → Prop
  | start {h : HoldemHand} : start level seats dealer = .ok h → Called level seats dealer h
  | call {h : HoldemHand} (c : HandCall) : Called level seats dealer h →
      Called level seats dealer (endState (c.perform.run h))

theorem endState_perform_act (p : PlayerId) (a : PlayerAction) (h : HoldemHand) :
    endState ((HandCall.act p a).perform.run h) = endState ((act p a).run h) := by
  simp only [HandCall.perform]
  cases hrun : (act p a).run h with
  | ok out h' => rw [run_bind_ok hrun]; rfl
  | error e h' => rw [run_bind_error hrun]; rfl

theorem endState_perform_settle (board : Board) (holeCards : HoleCards) (h : HoldemHand) :
    endState ((HandCall.settle board holeCards).perform.run h) =
      endState ((settleShowdown board holeCards).run h) := by
  simp only [HandCall.perform]
  cases hrun : (settleShowdown board holeCards).run h with
  | ok out h' => rw [run_bind_ok hrun]; rfl
  | error e h' => rw [run_bind_error hrun]; rfl

/-! ## The table -/

/-- The table at which a hand is played, and that the turn order is about its
seats. This holds in every state, also of a completed hand. -/
structure HoldemHand.SeatedAt (level : StakeLevel) (seats : List (PlayerId × Chips)) (dealer : Nat)
    (h : HoldemHand) : Prop where
  level_eq : h.level = level
  dealerIndex : h.dealerIndex = dealer
  roster : h.roster = seats
  pending : ∀ p ∈ h.pending, p ∈ seats.map (·.1)
  rights : ∀ p ∈ h.raiseRights, p ∈ seats.map (·.1)
  next_lt : ∀ i, h.nextToAct = some i → i < seats.length

/-- Seats change their chips and status only. -/
theorem roster_updateSeat (i : Nat) {f : SeatState → SeatState}
    (hid : ∀ s, (f s).playerId = s.playerId) (hstart : ∀ s, (f s).startingStack = s.startingStack) :
    (h.updateSeat i f).roster = h.roster := by
  apply ext_getElem?
  intro n
  simp only [HoldemHand.roster, HoldemHand.updateSeat, getElem?_map, getElem?_modify]
  cases h.seats[n]? with
  | none => rfl
  | some s => by_cases hin : i = n <;> simp [hin, hid, hstart]

namespace HoldemHand.SeatedAt

section

variable (hs : h.SeatedAt level seats dealer)

include hs

theorem size : h.size = seats.length := by
  rw [← hs.roster, HoldemHand.roster, length_map]

theorem mem_ids {s : SeatState} (hmem : s ∈ h.seats) : s.playerId ∈ seats.map (·.1) := by
  rw [← hs.roster, HoldemHand.roster, map_map]
  exact mem_map.mpr ⟨s, hmem, rfl⟩

theorem actionable (excluded : Option PlayerId) :
    ∀ p ∈ h.actionablePlayers excluded, p ∈ seats.map (·.1) := by
  intro p hp
  obtain ⟨s, hmem, rfl⟩ := mem_map.mp (mem_toFinset.mp hp)
  exact hs.mem_ids (mem_of_mem_filter hmem)

theorem updateSeat (i : Nat) {f : SeatState → SeatState} (hid : ∀ s, (f s).playerId = s.playerId)
    (hstart : ∀ s, (f s).startingStack = s.startingStack) :
    (h.updateSeat i f).SeatedAt level seats dealer :=
  ⟨hs.level_eq, hs.dealerIndex, (roster_updateSeat i hid hstart).trans hs.roster, hs.pending,
    hs.rights, hs.next_lt⟩

theorem consumeAction (p : PlayerId) : (h.consumeAction p).SeatedAt level seats dealer :=
  ⟨hs.level_eq, hs.dealerIndex, hs.roster, fun q hq => hs.pending q (Finset.mem_of_mem_erase hq),
    fun q hq => hs.rights q (Finset.mem_of_mem_erase hq), hs.next_lt⟩

theorem reopenAll (p : PlayerId) (fullRaise : Chips) :
    (h.reopenAll p fullRaise).SeatedAt level seats dealer :=
  ⟨hs.level_eq, hs.dealerIndex, hs.roster, hs.actionable _, hs.actionable _, hs.next_lt⟩

theorem reopenBehind : h.reopenBehind.SeatedAt level seats dealer := by
  have hbehind : ∀ s ∈ h.seatsBehind, s.playerId ∈ seats.map (·.1) :=
    fun s hmem => hs.mem_ids (mem_of_mem_filter hmem)
  refine ⟨hs.level_eq, hs.dealerIndex, hs.roster, fun q hq => ?_, fun q hq => ?_, hs.next_lt⟩
  · rcases Finset.mem_union.mp hq with hq | hq
    · exact hs.pending q hq
    · obtain ⟨s, hmem, rfl⟩ := mem_map.mp (mem_toFinset.mp hq)
      exact hbehind s hmem
  · rcases Finset.mem_union.mp hq with hq | hq
    · exact hs.rights q hq
    · obtain ⟨s, hmem, rfl⟩ := mem_map.mp (mem_toFinset.mp hq)
      exact hbehind s (mem_of_mem_filter hmem)

theorem passTurn (start : Nat) :
    ({ h with nextToAct := h.nextPendingFrom start } : HoldemHand).SeatedAt level seats dealer :=
  ⟨hs.level_eq, hs.dealerIndex, hs.roster, hs.pending, hs.rights,
    fun _ hk => hs.size ▸ (nextPendingFrom_eq_some hk).1⟩

theorem resetPending : h.resetPendingForStreet.SeatedAt level seats dealer :=
  ⟨hs.level_eq, hs.dealerIndex, hs.roster, hs.actionable none, hs.actionable none, hs.next_lt⟩

theorem openStreet : h.openStreet.SeatedAt level seats dealer := by
  have hcleared : ({ h with
      seats := h.seats.map fun s : SeatState => { s with streetCommitted := Chips.zero }
      currentBet := Chips.zero
      lastFullRaise := h.level.bigBlind } : HoldemHand).SeatedAt level seats dealer := by
    refine ⟨hs.level_eq, hs.dealerIndex, ?_, hs.pending, hs.rights, hs.next_lt⟩
    rw [← hs.roster]
    simp [HoldemHand.roster]
  exact hcleared.resetPending.passTurn _

theorem commit (i : Nat) (amount : Chips) :
    Ends (SeatedAt level seats dealer) h (commit i amount) := by
  refine .seq (.get hs) fun _ _ hs => .seq (.orThrow hs) fun _ _ hs => ?_
  refine .seq (.modify (hs.updateSeat i (fun _ => rfl) fun _ => rfl)) fun _ _ hs => ?_
  refine .seq (.orThrow hs) fun _ _ hs => ?_
  refine .seq (.modify (hs.updateSeat i (fun _ => rfl) fun _ => rfl)) fun _ _ hs => ?_
  refine .seq (.orThrow hs) fun _ _ hs => ?_
  refine .seq (.modify (hs.updateSeat i (fun _ => rfl) fun _ => rfl)) fun _ _ hs => ?_
  exact .ite (fun _ => .modify (hs.updateSeat i (fun _ => rfl) fun _ => rfl)) fun _ => .pure hs

theorem raiseTo (i : Nat) (target : Chips) :
    Ends (SeatedAt level seats dealer) h (raiseTo i target) := by
  refine .seq (.get hs) fun _ _ hs => .ite (fun _ => .throw hs) fun _ => ?_
  refine .ite (fun _ => .throw hs) fun _ => .seq (.orThrow hs) fun _ _ hs => ?_
  refine .ite (fun _ => .throw hs) fun _ => .seq (.orThrow hs) fun _ _ hs => ?_
  refine .ite (fun _ => .throw hs) fun _ => .seq (.get hs) fun _ _ hs => ?_
  refine .seq (hs.commit i _) fun _ _ hs => ?_
  have hraised : ∀ {h : HoldemHand}, h.SeatedAt level seats dealer → ∀ p,
      ({ h.consumeAction p with currentBet := target } : HoldemHand).SeatedAt level seats
        dealer := by
    intro h hs p
    have hc := hs.consumeAction p
    exact ⟨hc.level_eq, hc.dealerIndex, hc.roster, hc.pending, hc.rights, hc.next_lt⟩
  refine .seq (.modify (hraised hs _)) fun _ _ hs => .ite (fun _ => ?_) fun _ => ?_
  · exact .seq (.orThrow hs) fun _ _ hs => .modify (hs.reopenAll _ _)
  · exact .modify hs.reopenBehind

theorem applyAction (i : Nat) (p : PlayerId) (a : PlayerAction) :
    Ends (SeatedAt level seats dealer) h (applyAction i p a) := by
  cases a with
  | fold =>
    exact .seq (.modify (hs.updateSeat i (fun _ => rfl) fun _ => rfl)) fun _ _ hs =>
      .modify (hs.consumeAction p)
  | check =>
    exact .seq (.get hs) fun _ _ hs => .ite (fun _ => .throw hs) fun _ =>
      .modify (hs.consumeAction p)
  | call =>
    exact .seq (.get hs) fun _ _ hs => .ite (fun _ => .throw hs) fun _ =>
      .seq (hs.commit i _) fun _ _ hs => .modify (hs.consumeAction p)
  | raiseTo target => exact hs.raiseTo i target

theorem with_street (street : Street) :
    ({ h with street := street } : HoldemHand).SeatedAt level seats dealer :=
  ⟨hs.level_eq, hs.dealerIndex, hs.roster, hs.pending, hs.rights, hs.next_lt⟩

theorem advanceStreet : Ends (SeatedAt level seats dealer) h advanceStreet := by
  unfold TokenHoldem.advanceStreet
  generalize 5 = calls
  induction calls generalizing h with
  | zero => exact .throw hs
  | succ calls ih =>
    refine .seq (.get hs) fun _ _ hs => .seq (.orThrow hs) fun street _ hs => ?_
    refine .seq (.modify (hs.with_street street)) fun _ _ hs => .ite (fun _ => ?_) fun _ => ?_
    · have hnone : ∀ {h : HoldemHand}, h.SeatedAt level seats dealer →
          ({ h with nextToAct := none } : HoldemHand).SeatedAt level seats dealer := fun hs =>
        ⟨hs.level_eq, hs.dealerIndex, hs.roster, hs.pending, hs.rights, fun _ hk => nomatch hk⟩
      exact .seq (.modify (hnone hs)) fun _ _ hs => .pure hs
    · have hempty : ∀ {h : HoldemHand}, h.SeatedAt level seats dealer →
          ({ h with pending := ∅ } : HoldemHand).SeatedAt level seats dealer := fun hs =>
        ⟨hs.level_eq, hs.dealerIndex, hs.roster, by simp, hs.rights, hs.next_lt⟩
      refine .seq (.modify hs.openStreet) fun _ _ hs => .seq (.get hs) fun _ _ hs => ?_
      exact .ite (fun _ => .seq (.modify (hempty hs)) fun _ _ hs => ih hs) fun _ => .pure hs

theorem award (p : PlayerId) (amount : Chips) :
    Ends (SeatedAt level seats dealer) h (award p amount) :=
  .seq (.get hs) fun _ _ hs => .seq (.orThrow hs) fun _ _ hs => .seq (.orThrow hs) fun _ _ hs =>
    .modify (hs.updateSeat _ (fun _ => rfl) fun _ => rfl)

theorem buildSettlement : Ends (SeatedAt level seats dealer) h buildSettlement :=
  .seq (.get hs) fun _ _ hs => .ite (fun _ => .throw hs) fun _ => .pure hs

end

theorem act (hs : h.SeatedAt level seats dealer) (p : PlayerId) (a : PlayerAction) :
    Ends (SeatedAt level seats dealer) h (act p a) := by
  refine .seq (.get hs) fun _ _ hs => .seq (.orThrow hs) fun i _ hs => ?_
  refine .ite (fun _ => .throw hs) fun _ => .seq (hs.applyAction i p a) fun _ _ hs => ?_
  refine .seq (.get hs) fun now _ hs => ?_
  split
  · refine .seq (.seq (.seq (.get hs) fun _ _ hs => .seq (.orThrow hs) fun pot _ hs => ?_)
      fun _ _ hs => hs.buildSettlement) fun _ _ hs => .pure hs
    exact .seq (hs.award _ pot) fun _ _ hs => .modify (hs.with_street .complete)
  · refine .ite (fun _ => hs.advanceStreet) fun _ => ?_
    exact .seq (.modify (hs.passTurn _)) fun _ _ hs => .seq (.get hs) fun _ _ hs =>
      .seq (.orThrow hs) fun _ _ hs => .pure hs

/-- A showdown touches the stacks and the street only. -/
theorem settle (hs : h.SeatedAt level seats dealer) (board : Board) (holeCards : HoleCards) :
    Ends (SeatedAt level seats dealer) h (settleShowdown board holeCards) := by
  have hkeep := settleShowdown_keeps
    (f := fun h => (h.level, h.dealerIndex, h.roster, h.pending, h.raiseRights, h.nextToAct))
    (fun h i stack => ?_) (fun _ _ => rfl) board holeCards h
  swap
  · have hroster : (h.updateSeat i fun s => { s with stack := stack }).roster = h.roster :=
      roster_updateSeat i (fun _ => rfl) fun _ => rfl
    rw [hroster]
    rfl
  simp only [Prod.mk.injEq] at hkeep
  obtain ⟨hlevel, hdealer, hroster, hpending, hrights, hnext⟩ := hkeep
  exact ⟨hlevel.trans hs.level_eq, hdealer.trans hs.dealerIndex, hroster.trans hs.roster,
    hpending.symm ▸ hs.pending, hrights.symm ▸ hs.rights, hnext.symm ▸ hs.next_lt⟩

end HoldemHand.SeatedAt

theorem HoldemHand.Opened.seatedAt (ho : h.Opened level seats dealer) :
    h.SeatedAt level seats dealer := by
  have hroster : h.roster = seats := ho.roster.roster_eq.trans roster_initial
  have hids : ∀ p ∈ h.actionablePlayers none, p ∈ seats.map (·.1) := by
    intro p hp
    obtain ⟨s, hmem, rfl⟩ := mem_map.mp (mem_toFinset.mp hp)
    rw [← hroster, HoldemHand.roster, map_map]
    exact mem_map.mpr ⟨s, mem_of_mem_filter hmem, rfl⟩
  refine ⟨ho.level_eq, ho.dealerIndex, hroster, ho.pending ▸ hids, ho.raiseRights ▸ hids, ?_⟩
  intro i hi
  have := ho.inPlay.next_lt i hi
  rwa [ho.roster.size, initial_size] at this

theorem Called.seatedAt (hc : Called level seats dealer h) : h.SeatedAt level seats dealer := by
  induction hc with
  | start hs => exact (start_opened hs).seatedAt
  | call c _ ih =>
    cases c with
    | act p a =>
      rw [endState_perform_act]
      exact ih.act p a
    | settle board holeCards =>
      rw [endState_perform_settle]
      exact ih.settle board holeCards

theorem Called.checks (hc : Called level seats dealer h) : StartChecks level seats dealer := by
  induction hc with
  | start hs => exact startChecks_of_ok hs
  | call _ _ ih => exact ih

/-! ## The course of a hand -/

/-- A showdown is only ever left for a completed hand, and fails elsewhere. -/
theorem settleShowdown_street (board : Board) (holeCards : HoleCards) (h : HoldemHand) :
    endState ((settleShowdown board holeCards).run h) = h ∨ h.street = .showdown ∧
      Ends (fun h => h.street = .showdown ∨ h.street = .complete) h
        (settleShowdown board holeCards) := by
  by_cases hstreet : h.street = .showdown
  swap
  · left
    simp [settleShowdown, payShowdown, hstreet]
  refine .inr ⟨hstreet, ?_⟩
  set Q : HoldemHand → Prop := fun h => h.street = .showdown ∨ h.street = .complete with hQ
  have hlayers : ∀ contenders ranks thresholds {h : HoldemHand}, Q h →
      Ends Q h (settleLayers contenders ranks Chips.zero thresholds) := by
    intro contenders ranks thresholds h hs
    have hkeep := settleLayers_keeps (f := HoldemHand.street) (fun _ _ _ => rfl) contenders ranks
      thresholds Chips.zero h
    change Q (endState _)
    simp only [hQ, hkeep]
    exact hs
  have hcomplete : ∀ h : HoldemHand, Q { h with street := .complete } := fun _ => .inr rfl
  have hstart : Q h := .inl hstreet
  refine .seq (.seq (.get hstart) fun _ _ hs => ?_) fun _ _ hs => .seq (.get hs) fun _ _ hs =>
    .ite (fun _ => .throw hs) fun _ => .pure hs
  refine .ite (fun _ => .throw hs) fun _ => .ite (fun _ => .throw hs) fun _ => ?_
  exact .ite (fun _ => .throw hs) fun _ => .seq (hlayers _ _ _ hs) fun _ t _ =>
    .modify (hcomplete t)

theorem commit_keeps_street (i : Nat) (amount : Chips) : Keeps street (commit i amount) :=
  .bind .get fun _ => .bind (.orThrow _ _) fun _ => .bind (.modify fun _ => rfl) fun _ =>
    .bind (.orThrow _ _) fun _ => .bind (.modify fun _ => rfl) fun _ =>
      .bind (.orThrow _ _) fun _ =>
      .bind (.modify fun _ => rfl) fun _ => .ite (.modify fun _ => rfl) (.pure _)

theorem applyAction_keeps_street (i : Nat) (p : PlayerId) (a : PlayerAction) :
    Keeps street (applyAction i p a) := by
  cases a with
  | fold => exact .bind (.modify fun _ => rfl) fun _ => .modify fun _ => rfl
  | check => exact .bind .get fun _ => .ite (.throw _) (.modify fun _ => rfl)
  | call =>
    exact .bind .get fun _ => .ite (.throw _) (.bind (commit_keeps_street i _) fun _ =>
      .modify fun _ => rfl)
  | raiseTo target =>
    refine .bind .get fun _ => .ite (.throw _) (.ite (.throw _) (.bind (.orThrow _ _) fun _ => ?_))
    refine .ite (.throw _) (.bind (.orThrow _ _) fun _ => .ite (.throw _) (.bind .get fun _ => ?_))
    refine .bind (commit_keeps_street i _) fun _ => .bind (.modify fun _ => rfl) fun _ => ?_
    exact .ite (.bind (.orThrow _ _) fun _ => .modify fun _ => rfl) (.modify fun _ => rfl)

/-- A completed hand stays complete, although it may still be on turn. -/
theorem act_street_complete (p : PlayerId) (a : PlayerAction) (hs : h.street = .complete) :
    Ends (fun h => h.street = .complete) h (act p a) := by
  refine .seq (.get hs) fun _ _ hs => .seq (.orThrow hs) fun i t hs => ?_
  have happly : Ends (fun h => h.street = .complete) t (applyAction i p a) :=
    (applyAction_keeps_street i p a t).trans hs
  refine .ite (fun _ => .throw hs) fun _ => .seq happly fun _ _ hs =>
    .seq (.get hs) fun _ t hs => ?_
  split
  · have haward : ∀ winner pot {h : HoldemHand}, h.street = .complete →
        Ends (fun h => h.street = .complete) h (award winner pot) := fun winner pot h hs =>
      (award_keeps (f := street) (fun _ _ _ => rfl) winner pot h).trans hs
    refine .seq (.seq (.seq (.get hs) fun _ _ hs => .seq (.orThrow hs) fun pot _ hs => ?_)
      fun _ _ hs => ?_) fun _ _ hs => .pure hs
    · exact .seq (haward _ pot hs) fun _ _ _ => .modify rfl
    · exact .seq (.get hs) fun _ _ hs => .ite (fun _ => .throw hs) fun _ => .pure hs
  · refine .ite (fun _ => ?_) fun _ => ?_
    · -- there is no street after the last one
      have hnone : ¬t.street.IsBetting := by
        rw [hs]
        decide
      unfold Ends
      rw [advanceStreet_of_not_betting hnone]
      exact hs
    · have hpass : ∀ start, ({ t with nextToAct := t.nextPendingFrom start } : HoldemHand).street =
          .complete := fun _ => hs
      exact .seq (.modify (hpass _)) fun _ _ hs => .seq (.get hs) fun _ _ hs =>
        .seq (.orThrow hs) fun _ _ hs => .pure hs

/-- What is known of a hand before it is complete. -/
structure HoldemHand.OnCourse (h : HoldemHand) : Prop where
  betting : h.street.IsBetting → h.InPlay
  showdown : h.street = .showdown → h.nextToAct = none

theorem HoldemHand.OnCourse.of_complete (hs : h.street = .complete) : h.OnCourse where
  betting := by
    rw [hs]
    intro hb
    exact absurd hb (by decide)
  showdown := by
    rw [hs]
    intro hc
    cases hc

theorem HoldemHand.OnCourse.of_inPlay (hp : h.InPlay) (hs : h.street.IsBetting) : h.OnCourse where
  betting := fun _ => hp
  showdown := by
    intro hc
    rw [hc] at hs
    exact absurd hs (by decide)

theorem HoldemHand.OnCourse.of_showdown (hs : h.street = .showdown) (hn : h.nextToAct = none) :
    h.OnCourse where
  betting := by
    rw [hs]
    intro hb
    exact absurd hb (by decide)
  showdown := fun _ => hn

theorem Advances.onCourse (hadv : Advances h h') (hp : h.InPlay) : h'.OnCourse := by
  cases hadv with
  | opened hs _ _ => exact .of_inPlay (hp.openStreet _) hs
  | shown => exact .of_showdown rfl rfl
  | skipped => exact .of_showdown rfl rfl

theorem ActResult.onCourse {r : Result HoldemError HoldemHand ActionOutcome}
    (hr : ActResult h p a r) (hp : h.InPlay) (hs : h.street.IsBetting) : (endState r).OnCourse := by
  cases hr with
  | refused => exact .of_inPlay hp hs
  | won => exact .of_complete rfl
  | overflown hnext _ happly =>
    have hi := hp.next_lt _ hnext
    have he := applyAction_eq_ok happly
    exact .of_inPlay (hp.of_effect hi he) ((he.acted hi).street.symm ▸ hs)
  | advanced hnext _ happly _ hadv =>
    exact hadv.onCourse (hp.of_effect (hp.next_lt _ hnext) (applyAction_eq_ok happly))
  | passed hnext _ happly hlt =>
    have hi := hp.next_lt _ hnext
    have he := applyAction_eq_ok happly
    exact .of_inPlay ((hp.of_effect hi he).with_next hlt) ((he.acted hi).street.symm ▸ hs)

theorem Street.betting_or (s : Street) : s.IsBetting ∨ s = .showdown ∨ s = .complete := by
  cases s <;> decide

theorem Called.onCourse (hc : Called level seats dealer h) : h.OnCourse := by
  induction hc with
  | start hs =>
    have ho := start_opened hs
    exact .of_inPlay ho.inPlay (ho.street ▸ by decide)
  | @call h c _ ih =>
    cases c with
    | act p a =>
      rw [endState_perform_act]
      rcases h.street.betting_or with hs | hs | hs
      · exact ((ih.betting hs).act_run hs p a).onCourse (ih.betting hs) hs
      · rw [act_of_next_eq_none (ih.showdown hs)]
        exact ih
      · exact .of_complete (act_street_complete p a hs)
    | settle board holeCards =>
      rw [endState_perform_settle]
      rcases settleShowdown_street board holeCards h with hsame | ⟨hs, hend⟩
      · rw [hsame]
        exact ih
      · have hnext := settleShowdown_keeps_nextToAct board holeCards h
        rcases hend with hshow | hcomplete
        · exact .of_showdown hshow (hnext.trans (ih.showdown hs))
        · exact .of_complete hcomplete

/-- A hand that is not complete is completed by `act` only where `act` says so. -/
theorem Called.complete_of_act (hc : Called level seats dealer h) (hs : h.street ≠ .complete)
    (hcomplete : (endState ((act p a).run h)).street = .complete) :
    ∃ settlement h', (act p a).run h = .ok (.handComplete settlement) h' := by
  rcases h.street.betting_or with hb | hshow | hdone
  · have hresult := (hc.onCourse.betting hb).act_run hb p a
    generalize (act p a).run h = r at hresult hcomplete
    cases hresult with
    | refused => exact absurd hcomplete hs
    | won => exact ⟨_, _, rfl⟩
    | overflown next actor applied =>
      have hi := (hc.onCourse.betting hb).next_lt _ next
      exact absurd ((((applyAction_eq_ok applied).acted hi).street).symm.trans hcomplete) hs
    | advanced next actor applied closed advances =>
      cases advances with
      | opened hstreet =>
        have hopen : Street.IsBetting .complete := hcomplete ▸ hstreet
        exact absurd hopen (by decide)
      | shown => exact absurd hcomplete (by simp)
      | skipped => exact absurd hcomplete (by simp)
    | passed next actor applied =>
      have hi := (hc.onCourse.betting hb).next_lt _ next
      exact absurd ((((applyAction_eq_ok applied).acted hi).street).symm.trans hcomplete) hs
  · rw [act_of_next_eq_none (hc.onCourse.showdown hshow)] at hcomplete
    exact absurd hcomplete hs
  · exact absurd hdone hs

/-! ## Rejected actions -/

/-- With fewer than `2 ^ 64` chips on the table a last contender can be paid. -/
theorem HoldemHand.InPlay.pot_fits (hp : h.InPlay) {w : Nat} (hw : h.contenderSeats = {w})
    (hsum : h.total (·.startingStack.value) < 2 ^ 64) :
    (h.seatAt w).stack.value + h.wagered < 2 ^ 64 := by
  have hle := le_total (winner_lt hw) (·.stack.value)
  have htotal := total_of_funded hp.funded
  omega

/-- An action that is rejected before the hand is complete has changed nothing,
so neither the digest of the hand nor later play can tell that it was tried. -/
theorem rejected_act_unchanged (hc : Called level seats dealer h)
    (hsum : (seats.map (·.2.value)).sum < 2 ^ 64) (hopen : h.street ≠ .complete) {e : HoldemError}
    (hrun : (act p a).run h = .error e h') : h' = h := by
  rcases h.street.betting_or with hs | hs | hs
  · have hp := hc.onCourse.betting hs
    have hresult := hp.act_run hs p a
    rw [hrun] at hresult
    cases hresult with
    | refused => rfl
    | overflown hnext _ happly hw hover =>
      have hi := hp.next_lt _ hnext
      have he := applyAction_eq_ok happly
      have htotal : h'.total (·.startingStack.value) < 2 ^ 64 := by
        rw [(he.acted hi).sameRoster.total_startingStack, ← sum_roster_eq, hc.seatedAt.roster]
        exact hsum
      have := (hp.of_effect hi he).pot_fits hw htotal
      omega
  · rw [act_of_next_eq_none (hc.onCourse.showdown hs)] at hrun
    cases hrun
    rfl
  · exact absurd hs hopen

theorem Reach.called (hr : Reach level seats dealer h) : Called level seats dealer h := by
  induction hr with
  | start hs => exact .start hs
  | @act h h' p a out _ hrun ih =>
    have := ih.call (.act p a)
    rwa [endState_perform_act, hrun] at this
  | @settle h h' board holeCards settlement _ hrun ih =>
    have := ih.call (.settle board holeCards)
    rwa [endState_perform_settle, hrun] at this

/-- The small blind of a heads-up hand cannot check, and trying so changes nothing. -/
theorem rejected_check_unchanged :
    ∃ h h', Called oneTwoLevel headsUp 0 h ∧
      (act (player 1) .check).run h = .error .cannotCheck h' ∧ h' = h := by
  obtain ⟨h, hr, hopen, h', hrun, -⟩ := exists_reach_of_play oneTwoLevel headsUp 0 []
    (fun h => h.street ≠ .complete ∧
      ∃ h', (act (player 1) .check).run h = .error .cannotCheck h' ∧ True) (by decide +kernel)
  exact ⟨h, h', hr.called, hrun,
    rejected_act_unchanged hr.called (by decide) hopen hrun⟩

end TokenHoldem
