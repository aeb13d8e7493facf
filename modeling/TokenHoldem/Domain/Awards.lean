import Mathlib.Algebra.BigOperators.Ring.Finset
import Mathlib.Data.Nat.ModEq
import TokenHoldem.Domain.Seats

/-!
# Awards

Settling a hand only ever adds chips to stacks. `Credits h g h'` says that `h'`
is `h` with `g j` chips added to seat `j` and nothing else changed; every
awarding method of the engine is one such step, and steps compose by adding the
amounts. An award fails only when a stack would leave the `u64` range.

* `award_run`, `awardEach_run`, `awardSplit_run` — the awarding methods.
* `payUncontested_run` — the whole pot to one seat.
* `totalDelta_eq_zero_iff` — a settlement balances when the stacks again hold
  what the seats started with.
-/

namespace TokenHoldem

open Library HoldemHand Finset EStateM

variable {h h' h'' : HoldemHand} {i : Nat} {g g' : Nat → Nat} {amount : Chips}

/-- `h'` is `h` after seat `j` has been awarded `g j` chips, for every `j`. -/
structure HoldemHand.Credits (h : HoldemHand) (g : Nat → Nat) (h' : HoldemHand) : Prop where
  frame : h' = { h with seats := h'.seats }
  size : h'.size = h.size
  seat : ∀ j < h.size, h'.seatAt j = { h.seatAt j with stack := (h'.seatAt j).stack }
  stack : ∀ j < h.size, (h'.seatAt j).stack.value = (h.seatAt j).stack.value + g j

namespace HoldemHand.Credits

theorem refl (h : HoldemHand) : h.Credits (fun _ => 0) h :=
  ⟨rfl, rfl, fun _ _ => rfl, fun _ _ => rfl⟩

theorem trans (h₁ : h.Credits g h') (h₂ : h'.Credits g' h'') :
    h.Credits (fun j => g j + g' j) h'' where
  frame := by
    rw [h₂.frame, h₁.frame]
  size := h₂.size.trans h₁.size
  seat := by
    intro j hj
    rw [h₂.seat j (h₁.size ▸ hj), h₁.seat j hj]
  stack := by
    intro j hj
    have e₁ := h₁.stack j hj
    have e₂ := h₂.stack j (h₁.size ▸ hj)
    omega

theorem congr (hc : h.Credits g h') (hgg : ∀ j < h.size, g j = g' j) : h.Credits g' h' :=
  ⟨hc.frame, hc.size, hc.seat, fun j hj => by rw [hc.stack j hj, hgg j hj]⟩

/-- The stack of a winner holds the pot. -/
theorem pot_fits {pot : Nat} (hc : h.Credits (fun j => if j = i then pot else 0) h')
    (hi : i < h.size) : (h.seatAt i).stack.value + pot < 2 ^ 64 := by
  have hstack := hc.stack i hi
  rw [if_pos rfl] at hstack
  exact hstack ▸ (h'.seatAt i).stack.lt

section Frame

variable (hc : h.Credits g h')
include hc

theorem dealerIndex : h'.dealerIndex = h.dealerIndex := by rw [hc.frame]

theorem street : h'.street = h.street := by rw [hc.frame]

theorem pending : h'.pending = h.pending := by rw [hc.frame]

theorem raiseRights : h'.raiseRights = h.raiseRights := by rw [hc.frame]

theorem currentBet : h'.currentBet = h.currentBet := by rw [hc.frame]

theorem nextToAct : h'.nextToAct = h.nextToAct := by rw [hc.frame]

variable {j : Nat}

theorem idAt (hj : j < h.size) : h'.idAt j = h.idAt j := by
  unfold HoldemHand.idAt
  rw [hc.seat j hj]

theorem status (hj : j < h.size) : (h'.seatAt j).status = (h.seatAt j).status := by
  rw [hc.seat j hj]

theorem totalCommitted (hj : j < h.size) :
    (h'.seatAt j).totalCommitted = (h.seatAt j).totalCommitted := by
  rw [hc.seat j hj]

theorem startingStack (hj : j < h.size) :
    (h'.seatAt j).startingStack = (h.seatAt j).startingStack := by
  rw [hc.seat j hj]

theorem contenderSeats : h'.contenderSeats = h.contenderSeats := by
  ext j
  simp only [mem_contenderSeats, hc.size]
  exact and_congr_right fun hj => by rw [hc.status hj]

/-- The stacks grow by the chips awarded. -/
theorem total_stack :
    (h'.total (·.stack.value)) = h.total (·.stack.value) + ∑ j ∈ range h.size, g j := by
  unfold total
  rw [hc.size, ← sum_add_distrib]
  exact sum_congr rfl fun j hj => hc.stack j (mem_range.mp hj)

theorem sameRoster : h.SameRoster h' :=
  ⟨hc.size, fun _ hj => hc.idAt hj, fun _ hj => hc.startingStack hj⟩

theorem distinct (hd : h.DistinctIds) : h'.DistinctIds := hc.sameRoster.distinct hd

theorem total_committed : h'.wagered = h.wagered := by
  unfold wagered total
  rw [hc.size]
  exact sum_congr rfl fun j hj => congrArg Chips.value (hc.totalCommitted (mem_range.mp hj))

end Frame

end HoldemHand.Credits

/-! ## Awarding -/

/-- An award either lands on the player's seat or would overflow its stack. -/
theorem award_run (hd : h.DistinctIds) (hi : i < h.size) (amount : Chips) :
    (∃ h', (award (h.idAt i) amount).run h = .ok () h' ∧
      h.Credits (fun j => if j = i then amount.value else 0) h') ∨
    ((award (h.idAt i) amount).run h = .error .chipOverflow h ∧
      2 ^ 64 ≤ (h.seatAt i).stack.value + amount.value) := by
  rcases hc : (h.seatAt i).stack.checkedAdd amount with _ | stack
  · refine .inr ⟨?_, Chips.checkedAdd_eq_none.mp hc⟩
    simp [award, hd.seatIndex_idAt hi, hc]
  · refine .inl ⟨h.updateSeat i fun s => { s with stack := stack }, ?_, rfl,
      size_updateSeat, ?_, ?_⟩
    · simp [award, hd.seatIndex_idAt hi, hc]
    · intro j _
      by_cases hj : j = i
      · subst hj
        rw [seatAt_updateSeat_self hi]
      · rw [seatAt_updateSeat_of_ne hi hj]
    · intro j _
      by_cases hj : j = i
      · subst hj
        simpa [seatAt_updateSeat_self hi] using Chips.checkedAdd_eq_some.mp hc
      · simp [seatAt_updateSeat_of_ne hi hj, hj]

/-- The same award to each of a list of distinct seats. -/
theorem awardEach_run (amount : Chips) :
    ∀ (seats : List Nat) (h : HoldemHand), h.DistinctIds → seats.Nodup → (∀ i ∈ seats, i < h.size) →
      (∃ h', (awardEach amount (seats.map h.idAt)).run h = .ok () h' ∧
        h.Credits (fun j => if j ∈ seats then amount.value else 0) h') ∨
      (∃ h', (awardEach amount (seats.map h.idAt)).run h = .error .chipOverflow h' ∧
        ∃ i ∈ seats, 2 ^ 64 ≤ (h.seatAt i).stack.value + amount.value) := by
  intro seats
  induction seats with
  | nil => exact fun h _ _ _ => .inl ⟨h, rfl, by simpa using Credits.refl h⟩
  | cons i rest ih =>
    intro h hd hnodup hlt
    obtain ⟨hi_notin, hnodup⟩ := List.nodup_cons.mp hnodup
    have hi := hlt i List.mem_cons_self
    rcases award_run hd hi amount with ⟨h₁, hok, hc₁⟩ | ⟨herr, hover⟩
    · have hids : rest.map h.idAt = rest.map h₁.idAt :=
        List.map_congr_left fun j hj => (hc₁.idAt (hlt j (List.mem_cons_of_mem _ hj))).symm
      have hlt₁ : ∀ j ∈ rest, j < h₁.size :=
        fun j hj => hc₁.size ▸ hlt j (List.mem_cons_of_mem _ hj)
      simp only [List.map_cons, awardEach, run_bind_ok hok, hids]
      rcases ih h₁ (hc₁.distinct hd) hnodup hlt₁ with ⟨h₂, hok₂, hc₂⟩ | ⟨h₂, herr₂, j, hj, hover⟩
      · refine .inl ⟨h₂, hok₂, (hc₁.trans hc₂).congr fun j _ => ?_⟩
        by_cases hji : j = i
        · simp [hji, hi_notin]
        · simp [hji]
      · -- the failing seat is another one, so its stack is still the one of `h`
        refine .inr ⟨h₂, herr₂, j, List.mem_cons_of_mem _ hj, ?_⟩
        have hji : j ≠ i := fun he => hi_notin (he ▸ hj)
        have := hc₁.stack j (hlt j (List.mem_cons_of_mem _ hj))
        simp only [hji, if_false] at this
        omega
    · refine .inr ⟨h, ?_, i, List.mem_cons_self, hover⟩
      simp only [List.map_cons, awardEach, run_bind_error herr]

/-! ## Splitting a pot -/

/-- The seat indices in the order in which odd chips are handed out. -/
def HoldemHand.seatRotation (h : HoldemHand) : List Nat :=
  (List.range h.size).map fun k => (h.dealerIndex + (k + 1)) % h.size

theorem seatOrder_eq (h : HoldemHand) : h.seatOrder = h.seatRotation.map h.idAt := by
  simp [seatOrder, seatRotation, idAt]

theorem nodup_seatRotation (h : HoldemHand) : h.seatRotation.Nodup := by
  refine List.Nodup.map_on (fun a ha b hb hab => ?_) List.nodup_range
  have hab : a ≡ b [MOD h.size] := by
    have : h.dealerIndex + 1 + a ≡ h.dealerIndex + 1 + b [MOD h.size] := by
      simpa [Nat.ModEq, Nat.add_assoc, Nat.add_comm, Nat.add_left_comm] using hab
    exact Nat.ModEq.add_left_cancel' _ this
  exact hab.eq_of_lt_of_lt (List.mem_range.mp ha) (List.mem_range.mp hb)

/-- The rotation runs through every seat. -/
theorem toFinset_seatRotation (h : HoldemHand) : h.seatRotation.toFinset = range h.size := by
  refine eq_of_subset_of_card_le (fun i hi => ?_) ?_
  · simp only [seatRotation, List.mem_toFinset, List.mem_map, List.mem_range] at hi
    obtain ⟨k, hk, rfl⟩ := hi
    exact mem_range.mpr (Nat.mod_lt _ (by omega))
  · rw [List.toFinset_card_of_nodup (nodup_seatRotation h)]
    simp [seatRotation]

/-- The winning seats in seat order: as many as there are winners. -/
theorem length_filter_seatRotation {seats : List Nat} (hnodup : seats.Nodup)
    (hlt : ∀ i ∈ seats, i < h.size) :
    (h.seatRotation.filter (· ∈ seats)).length = seats.length := by
  rw [← List.toFinset_card_of_nodup ((nodup_seatRotation h).filter _),
    ← List.toFinset_card_of_nodup hnodup]
  congr 1
  ext i
  have := congrArg (i ∈ ·) (toFinset_seatRotation h)
  simp only [List.mem_toFinset, mem_range, eq_iff_iff] at this
  simp only [List.toFinset_filter, mem_filter, List.mem_toFinset, this, decide_eq_true_eq]
  exact ⟨fun hi => hi.2, fun hi => ⟨hlt i hi, hi⟩⟩

/-- The seats that get an odd chip: the first `k` winners in seat order. -/
def HoldemHand.oddSeats (h : HoldemHand) (winners : List Nat) (k : Nat) : List Nat :=
  (h.seatRotation.filter (· ∈ winners)).take k

variable {winners : List Nat}

theorem mem_of_mem_oddSeats {k : Nat} (hi : i ∈ h.oddSeats winners k) : i ∈ winners := by
  simpa using (List.mem_filter.mp (List.mem_of_mem_take hi)).2

theorem nodup_oddSeats (winners : List Nat) (k : Nat) : (h.oddSeats winners k).Nodup :=
  ((nodup_seatRotation h).filter _).sublist (List.take_sublist _ _)

theorem length_oddSeats {k : Nat} (hnodup : winners.Nodup) (hlt : ∀ i ∈ winners, i < h.size)
    (hk : k ≤ winners.length) : (h.oddSeats winners k).length = k := by
  rw [oddSeats, List.length_take, length_filter_seatRotation hnodup hlt]
  exact Nat.min_eq_left hk

/-- The players the source collects for the odd chips sit at `oddSeats`. -/
theorem take_seatOrder_eq (hd : h.DistinctIds) {k : Nat} (hlt : ∀ i ∈ winners, i < h.size) :
    (h.seatOrder.filter (· ∈ winners.map h.idAt)).take k = (h.oddSeats winners k).map h.idAt := by
  rw [oddSeats, seatOrder_eq, List.filter_map, List.map_take]
  congr 2
  refine List.filter_congr fun i hi => ?_
  rw [← List.mem_toFinset, toFinset_seatRotation, mem_range] at hi
  simp only [Function.comp_apply, List.mem_map, decide_eq_decide]
  constructor
  · rintro ⟨j, hj, hji⟩
    exact hd j (hlt j hj) i hi hji ▸ hj
  · exact fun hi' => ⟨i, hi', rfl⟩

/-- The sum of a constant award over distinct seats. -/
theorem sum_ite_mem_seats {seats : List Nat} (hnodup : seats.Nodup)
    (hlt : ∀ i ∈ seats, i < h.size) (n : Nat) :
    (∑ j ∈ range h.size, if j ∈ seats then n else 0) = n * seats.length := by
  have hfilter : (range h.size).filter (· ∈ seats) = seats.toFinset := by
    ext i
    simp only [mem_filter, mem_range, List.mem_toFinset]
    exact ⟨fun hi => hi.2, fun hi => ⟨hlt i hi, hi⟩⟩
  rw [← sum_filter, hfilter, sum_const, List.toFinset_card_of_nodup hnodup, nsmul_eq_mul,
    Nat.cast_id, Nat.mul_comm]

/-- What a split of `pot` pays: the chips go to winners only, and all of them. -/
structure SplitPays (h : HoldemHand) (pot : Nat) (winners : List Nat) (g : Nat → Nat) : Prop where
  support : ∀ j < h.size, j ∉ winners → g j = 0
  sum : ∑ j ∈ range h.size, g j = pot

/-- What one seat gets of a split pot: a winner's equal share, and one of the odd
chips for the first winners in seat order. -/
def HoldemHand.share (h : HoldemHand) (pot : Nat) (winners : List Nat) (j : Nat) : Nat :=
  (if j ∈ winners then pot / winners.length else 0) +
    if j ∈ h.oddSeats winners (pot % winners.length) then 1 else 0

theorem share_splitPays (hne : winners ≠ []) (hnodup : winners.Nodup)
    (hlt : ∀ i ∈ winners, i < h.size) (pot : Nat) :
    SplitPays h pot winners (h.share pot winners) := by
  have hodd_lt : ∀ i ∈ h.oddSeats winners (pot % winners.length), i < h.size :=
    fun i hi => hlt i (mem_of_mem_oddSeats hi)
  refine ⟨fun j _ hj => ?_, ?_⟩
  · have hj' : j ∉ h.oddSeats winners (pot % winners.length) :=
      fun hj' => hj (mem_of_mem_oddSeats hj')
    simp [share, hj, hj']
  · unfold share
    rw [sum_add_distrib, sum_ite_mem_seats hnodup hlt,
      sum_ite_mem_seats (nodup_oddSeats _ _) hodd_lt,
      length_oddSeats hnodup hlt (Nat.mod_lt _ (List.length_pos_iff.mpr hne)).le, Nat.one_mul,
      Nat.mul_comm]
    exact Nat.div_add_mod pot winners.length

/-- `award_split`: it fails only if the stacks cannot hold the pot. -/
theorem awardSplit_run (hd : h.DistinctIds) (hne : winners ≠ []) (hnodup : winners.Nodup)
    (hlt : ∀ i ∈ winners, i < h.size) (pot : Chips) :
    (∃ h', (awardSplit pot (winners.map h.idAt)).run h = .ok () h' ∧
      h.Credits (h.share pot.value winners) h') ∨
    (∃ h', (awardSplit pot (winners.map h.idAt)).run h = .error .chipOverflow h' ∧
      2 ^ 64 ≤ h.total (·.stack.value) + pot.value) := by
  have hpos : 0 < winners.length := List.length_pos_iff.mpr hne
  have hdiv := Nat.div_add_mod pot.value winners.length
  have hshare : pot.value / winners.length ≤ winners.length * (pot.value / winners.length) :=
    Nat.le_mul_of_pos_left _ hpos
  unfold awardSplit
  rw [List.length_map]
  rcases awardEach_run (pot.div winners.length) winners h hd hnodup hlt with
    ⟨h₁, hok, hc₁⟩ | ⟨h₁, herr, i, hi, hover⟩
  swap
  · refine .inr ⟨h₁, run_bind_error herr, ?_⟩
    have := le_total (hlt i hi) (·.stack.value)
    simp only [Chips.div_value] at hover
    omega
  have hlt₁ : ∀ i ∈ winners, i < h₁.size := fun i hi => hc₁.size ▸ hlt i hi
  have hids : winners.map h.idAt = winners.map h₁.idAt :=
    List.map_congr_left fun i hi => (hc₁.idAt (hlt i hi)).symm
  rw [run_bind_ok hok, run_bind, run_get, hids]
  simp only [take_seatOrder_eq (hc₁.distinct hd) hlt₁]
  have hodd_eq : h₁.oddSeats winners (pot.value % winners.length) =
      h.oddSeats winners (pot.value % winners.length) := by
    unfold oddSeats seatRotation
    rw [hc₁.dealerIndex, hc₁.size]
  rw [hodd_eq]
  set odd := h.oddSeats winners (pot.value % winners.length)
  have hodd_lt : ∀ i ∈ odd, i < h.size := fun i hi => hlt i (mem_of_mem_oddSeats hi)
  have hodd_length : odd.length = pot.value % winners.length :=
    length_oddSeats hnodup hlt (Nat.mod_lt _ hpos).le
  rcases awardEach_run Chips.one odd h₁ (hc₁.distinct hd) (nodup_oddSeats _ _)
      (fun i hi => hc₁.size ▸ hodd_lt i hi) with ⟨h₂, hok₂, hc₂⟩ | ⟨h₂, herr₂, i, hi, hover⟩
  · exact .inl ⟨h₂, hok₂, hc₁.trans hc₂⟩
  · refine .inr ⟨h₂, herr₂, ?_⟩
    have hwin := mem_of_mem_oddSeats hi
    have hstack := hc₁.stack i (hlt i hwin)
    have hle := le_total (hlt i hwin) (·.stack.value)
    have hodd_pos : 0 < pot.value % winners.length := hodd_length ▸ List.length_pos_of_mem hi
    simp only [hwin, if_true, Chips.div_value, Chips.one_value] at hstack hover
    omega

/-- The sum of an award to one seat. -/
theorem sum_ite_eq_seat (hi : i < h.size) (n : Nat) :
    (∑ j ∈ range h.size, if j = i then n else 0) = n := by
  rw [sum_ite_eq' (range h.size) i, if_pos (mem_range.mpr hi)]

/-! ## Completing a hand -/

theorem foldlM_checkedAdd_eq_some {seats : List SeatState} {total c : Chips} :
    seats.foldlM (fun total seat => total.checkedAdd seat.totalCommitted) total = some c ↔
      c.value = total.value + (seats.map (·.totalCommitted.value)).sum := by
  induction seats generalizing total with
  | nil => simp [Chips.ext_iff, eq_comm]
  | cons s rest ih =>
    rw [List.foldlM_cons, List.map_cons, List.sum_cons]
    rcases hc : total.checkedAdd s.totalCommitted with _ | t
    · rw [Chips.checkedAdd_eq_none] at hc
      have := c.lt
      simp only [Option.bind_eq_bind, Option.bind_none, reduceCtorEq, false_iff]
      omega
    · rw [Chips.checkedAdd_eq_some] at hc
      simp only [Option.bind_eq_bind, Option.bind_some, ih]
      omega

theorem sumCommitted_eq_some {pot : Chips} : h.sumCommitted = some pot ↔ pot.value = h.wagered := by
  rw [sumCommitted, foldlM_checkedAdd_eq_some, sum_seats_eq_total]
  simp

/-- `total_delta` compares what the stacks hold with what they started with. -/
theorem totalDelta_eq (h : HoldemHand) :
    h.totalDelta = (h.total (·.stack.value) : Int) - h.total (·.startingStack.value) := by
  rw [totalDelta, playerSettlements, List.map_map, seats_eq_map h, List.map_map]
  unfold total
  push_cast
  rw [← sum_sub_distrib]
  rfl

theorem totalDelta_eq_zero_iff :
    h.totalDelta = 0 ↔ h.total (·.stack.value) = h.total (·.startingStack.value) := by
  rw [totalDelta_eq]
  omega

theorem buildSettlement_run (h : HoldemHand) : buildSettlement.run h =
      if h.totalDelta = 0 then .ok ⟨h.playerSettlements⟩ h else .error .stateInvariant h := by
  unfold buildSettlement
  rw [run_bind, run_get]
  dsimp only
  by_cases hzero : h.totalDelta = 0
  · rw [if_neg (not_not.mpr hzero), if_pos hzero]
    rfl
  · rw [if_pos hzero, if_neg hzero]
    rfl

/-- `finish_uncontested` pays the winner every committed chip, unless its stack
cannot hold them. -/
theorem payUncontested_run (hd : h.DistinctIds) (hi : i < h.size) :
    (∃ h₁, h.Credits (fun j => if j = i then h.wagered else 0) h₁ ∧
      (payUncontested (h.idAt i)).run h = .ok () { h₁ with street := .complete }) ∨
    ((payUncontested (h.idAt i)).run h = .error .chipOverflow h ∧
      2 ^ 64 ≤ (h.seatAt i).stack.value + h.wagered) := by
  unfold payUncontested
  rw [run_bind, run_get]
  rcases hpot : h.sumCommitted with _ | pot
  · refine .inr ⟨by simp [hpot], ?_⟩
    by_contra hlt
    have hlt : h.wagered < 2 ^ 64 := by omega
    have : h.sumCommitted = some ⟨_, hlt⟩ := sumCommitted_eq_some.mpr rfl
    simp [hpot] at this
  · rw [← sumCommitted_eq_some.mp hpot]
    rcases award_run hd hi pot with ⟨h₁, hok, hc⟩ | ⟨herr, hover⟩
    · exact .inl ⟨h₁, hc, by simp [hpot, hok]⟩
    · exact .inr ⟨by simp [hpot, herr], hover⟩

/-- What the winner's stack holds after an uncontested hand. -/
theorem total_stack_of_pot {h₁ : HoldemHand} (hi : i < h.size)
    (hc : h.Credits (fun j => if j = i then h.wagered else 0) h₁) :
    h₁.total (·.stack.value) = h.total (·.stack.value) + h.wagered := by
  rw [hc.total_stack, sum_ite_eq_seat hi]

end TokenHoldem
