import Mathlib.Algebra.BigOperators.Intervals
import Mathlib.Algebra.Order.BigOperators.Group.Finset
import TokenHoldem.Domain.Hand

/-!
# Seats by index

The engine addresses seats by index in some places and by player in others.
This file translates between the two: under distinct players (`DistinctIds`) a
player names one index, the list of contenders is the list of the indices
`contenderSeats`, and a sum over the seats is a sum over the indices. Updating
one seat changes one summand.
-/

namespace TokenHoldem

open Finset

namespace HoldemHand

variable {h : HoldemHand} {i j : Nat} {f : SeatState → SeatState}

/-- The player at an index. -/
def idAt (h : HoldemHand) (i : Nat) : PlayerId := (h.seatAt i).playerId

/-- The number of seats. -/
abbrev size (h : HoldemHand) : Nat := h.seats.length

theorem seats_eq_map (h : HoldemHand) : h.seats = (List.range h.size).map h.seatAt := by
  apply List.ext_getElem
  · simp [size]
  · intro n h1 h2
    simp [seatAt, h1]

theorem mem_seats_iff {s : SeatState} : s ∈ h.seats ↔ ∃ i < h.size, h.seatAt i = s := by
  rw [seats_eq_map h]
  simp [size]

theorem forall_seats_iff {P : SeatState → Prop} :
    (∀ s ∈ h.seats, P s) ↔ ∀ i < h.size, P (h.seatAt i) := by
  constructor
  · exact fun H i hi => H _ (mem_seats_iff.mpr ⟨i, hi, rfl⟩)
  · rintro H s hs
    obtain ⟨i, hi, rfl⟩ := mem_seats_iff.mp hs
    exact H i hi

/-! ## Updating one seat -/

@[simp] theorem size_updateSeat : (h.updateSeat i f).size = h.size := by
  simp [size, updateSeat]

theorem seatAt_updateSeat (hi : i < h.size) :
    (h.updateSeat i f).seatAt j = if j = i then f (h.seatAt i) else h.seatAt j := by
  unfold size at hi
  simp only [updateSeat, seatAt, List.getD_eq_getElem?_getD, List.getElem?_modify]
  by_cases hji : j = i
  · subst hji
    simp [hi]
  · simp [hji, Ne.symm hji]

theorem seatAt_updateSeat_self (hi : i < h.size) :
    (h.updateSeat i f).seatAt i = f (h.seatAt i) := by
  simp [seatAt_updateSeat hi]

theorem seatAt_updateSeat_of_ne (hi : i < h.size) (hij : j ≠ i) :
    (h.updateSeat i f).seatAt j = h.seatAt j := by
  simp [seatAt_updateSeat hi, hij]

variable {g : SeatState → SeatState} {h' : HoldemHand}

/-- Updates that agree on the seat are the same update. -/
theorem updateSeat_congr (hfg : f (h.seatAt i) = g (h.seatAt i)) :
    h.updateSeat i f = h.updateSeat i g := by
  unfold updateSeat
  congr 1
  apply List.ext_getElem?
  intro n
  simp only [List.getElem?_modify]
  by_cases hin : i = n
  · subst hin
    rcases hs : h.seats[i]? with _ | s
    · rfl
    · have : h.seatAt i = s := by simp [seatAt, hs]
      simpa [this] using hfg
  · simp [hin]

@[simp] theorem updateSeat_updateSeat :
    (h.updateSeat i f).updateSeat i g = h.updateSeat i (g ∘ f) := by
  simp [updateSeat, List.modify_modify_eq]

@[simp] theorem updateSeat_level : (h.updateSeat i f).level = h.level := rfl
@[simp] theorem updateSeat_dealerIndex : (h.updateSeat i f).dealerIndex = h.dealerIndex := rfl
@[simp] theorem updateSeat_street : (h.updateSeat i f).street = h.street := rfl
@[simp] theorem updateSeat_pending : (h.updateSeat i f).pending = h.pending := rfl
@[simp] theorem updateSeat_raiseRights : (h.updateSeat i f).raiseRights = h.raiseRights := rfl
@[simp] theorem updateSeat_currentBet : (h.updateSeat i f).currentBet = h.currentBet := rfl
@[simp] theorem updateSeat_lastFullRaise : (h.updateSeat i f).lastFullRaise = h.lastFullRaise := rfl
@[simp] theorem updateSeat_nextToAct : (h.updateSeat i f).nextToAct = h.nextToAct := rfl

@[simp] theorem consumeAction_seatAt (p : PlayerId) :
    (h.consumeAction p).seatAt j = h.seatAt j := rfl
@[simp] theorem consumeAction_size (p : PlayerId) : (h.consumeAction p).size = h.size := rfl

/-! ## Sums over the seats -/

/-- The sum of an amount over all seats. -/
def total (h : HoldemHand) (amount : SeatState → Nat) : Nat :=
  ∑ i ∈ range h.size, amount (h.seatAt i)

/-- The chips that all seats have put into the pot. -/
abbrev wagered (h : HoldemHand) : Nat := h.total (·.totalCommitted.value)

theorem sum_seats_eq_total (amount : SeatState → Nat) :
    (h.seats.map amount).sum = h.total amount := by
  rw [seats_eq_map h, List.map_map]
  rfl

/-- Updating a seat replaces its summand. -/
theorem total_updateSeat (hi : i < h.size) (amount : SeatState → Nat) :
    (h.updateSeat i f).total amount + amount (h.seatAt i) =
      h.total amount + amount (f (h.seatAt i)) := by
  have hmem : i ∈ range h.size := mem_range.mpr hi
  have hrest : ∑ j ∈ (range h.size).erase i, amount ((h.updateSeat i f).seatAt j) =
      ∑ j ∈ (range h.size).erase i, amount (h.seatAt j) :=
    sum_congr rfl fun j hj => by rw [seatAt_updateSeat_of_ne hi (ne_of_mem_erase hj)]
  unfold total
  rw [size_updateSeat, ← add_sum_erase _ _ hmem, hrest, seatAt_updateSeat_self hi,
    ← add_sum_erase _ (fun j => amount (h.seatAt j)) hmem]
  omega

theorem le_total (hi : i < h.size) (amount : SeatState → Nat) :
    amount (h.seatAt i) ≤ h.total amount :=
  single_le_sum (f := fun j => amount (h.seatAt j)) (fun _ _ => Nat.zero_le _) (mem_range.mpr hi)

theorem total_add (a b : SeatState → Nat) : (h.total fun s => a s + b s) = h.total a + h.total b :=
  sum_add_distrib

theorem total_congr {a b : SeatState → Nat} (hab : ∀ i < h.size, a (h.seatAt i) = b (h.seatAt i)) :
    h.total a = h.total b :=
  sum_congr rfl fun i hi => hab i (mem_range.mp hi)

/-! ## Players and indices -/

/-- No player holds two seats. -/
def DistinctIds (h : HoldemHand) : Prop :=
  ∀ i < h.size, ∀ j < h.size, h.idAt i = h.idAt j → i = j

theorem seatAt_eq_getElem (hi : i < h.seats.length) : h.seatAt i = h.seats[i] := by
  simp [seatAt, hi]

theorem DistinctIds.seatIndex_idAt (hd : h.DistinctIds) (hi : i < h.size) :
    h.seatIndex (h.idAt i) = some i := by
  unfold seatIndex
  rw [List.findIdx?_eq_some_iff_getElem]
  refine ⟨hi, ?_, fun j hj => ?_⟩
  · rw [← seatAt_eq_getElem hi]
    simp [idAt]
  · have hj' : j < h.size := hj.trans hi
    have hne : h.idAt j ≠ h.idAt i := fun he => hj.ne (hd j hj' i hi he)
    rw [decide_eq_true_eq, ← seatAt_eq_getElem hj']
    exact hne

theorem DistinctIds.seat_idAt (hd : h.DistinctIds) (hi : i < h.size) :
    h.seat (h.idAt i) = some (h.seatAt i) := by
  unfold seat
  rw [List.find?_eq_some_iff_getElem]
  refine ⟨by simp [idAt], i, hi, (seatAt_eq_getElem hi).symm, fun j hj => ?_⟩
  have hj' : j < h.size := hj.trans hi
  have hne : h.idAt j ≠ h.idAt i := fun he => hj.ne (hd j hj' i hi he)
  rw [Bool.not_eq_true', decide_eq_false_iff_not, ← seatAt_eq_getElem hj']
  exact hne

/-- The seats still in the hand. -/
def contenderSeats (h : HoldemHand) : Finset Nat :=
  (range h.size).filter fun i => (h.seatAt i).status ≠ .folded

@[simp] theorem mem_contenderSeats :
    i ∈ h.contenderSeats ↔ i < h.size ∧ (h.seatAt i).status ≠ .folded := by
  simp [contenderSeats]

theorem winner_lt (hw : h.contenderSeats = {i}) : i < h.size :=
  (mem_contenderSeats.mp (hw ▸ mem_singleton_self i)).1

theorem remainingContenders_eq (h : HoldemHand) : h.remainingContenders =
      ((List.range h.size).filter fun i => (h.seatAt i).status ≠ .folded).map h.idAt := by
  unfold remainingContenders
  conv_lhs => rw [seats_eq_map h]
  simp only [List.filter_map, List.map_map]
  rfl

theorem length_remainingContenders (h : HoldemHand) :
    h.remainingContenders.length = h.contenderSeats.card := by
  rw [remainingContenders_eq, List.length_map]
  rfl

theorem mem_remainingContenders {p : PlayerId} :
    p ∈ h.remainingContenders ↔ ∃ i ∈ h.contenderSeats, h.idAt i = p := by
  simp [remainingContenders_eq, and_assoc]

theorem mem_actionablePlayers {p : PlayerId} {excluded : Option PlayerId} :
    p ∈ h.actionablePlayers excluded ↔
      ∃ i < h.size, h.idAt i = p ∧ (h.seatAt i).status = .active ∧ some p ≠ excluded := by
  simp only [actionablePlayers, List.mem_toFinset, List.mem_map, List.mem_filter, mem_seats_iff]
  constructor
  · rintro ⟨_, ⟨⟨i, hi, rfl⟩, hs⟩, rfl⟩
    exact ⟨i, hi, rfl, by simpa using hs⟩
  · rintro ⟨i, hi, rfl, hs⟩
    exact ⟨_, ⟨⟨i, hi, rfl⟩, by simpa [idAt] using hs⟩, rfl⟩

/-! ## The roster -/

/-- Two hands of the same players with the same buy-ins. -/
structure SameRoster (h h' : HoldemHand) : Prop where
  size : h'.size = h.size
  idAt : ∀ j < h.size, h'.idAt j = h.idAt j
  startingStack : ∀ j < h.size, (h'.seatAt j).startingStack = (h.seatAt j).startingStack

theorem SameRoster.trans {h'' : HoldemHand} (h₁ : h.SameRoster h') (h₂ : h'.SameRoster h'') :
    h.SameRoster h'' where
  size := h₂.size.trans h₁.size
  idAt j hj := (h₂.idAt j (h₁.size ▸ hj)).trans (h₁.idAt j hj)
  startingStack j hj := (h₂.startingStack j (h₁.size ▸ hj)).trans (h₁.startingStack j hj)

theorem SameRoster.distinct (hs : h.SameRoster h') (hd : h.DistinctIds) : h'.DistinctIds := by
  intro j hj k hk hjk
  rw [hs.size] at hj hk
  rw [hs.idAt j hj, hs.idAt k hk] at hjk
  exact hd j hj k hk hjk

theorem SameRoster.of_seats (hseats : h'.seats = h.seats) : h.SameRoster h' := by
  have hat : ∀ j, h'.seatAt j = h.seatAt j := fun j => by unfold seatAt; rw [hseats]
  exact ⟨by unfold HoldemHand.size; rw [hseats], fun j _ => by simp only [HoldemHand.idAt, hat],
    fun j _ => by rw [hat]⟩

theorem SameRoster.total_startingStack (hs : h.SameRoster h') :
    h'.total (·.startingStack.value) = h.total (·.startingStack.value) := by
  unfold total
  rw [hs.size]
  exact sum_congr rfl fun j hj => congrArg Chips.value (hs.startingStack j (mem_range.mp hj))

/-- The players and buy-ins of a hand, as `start` takes them. -/
def roster (h : HoldemHand) : List (PlayerId × Chips) :=
  h.seats.map fun s => (s.playerId, s.startingStack)

theorem SameRoster.roster_eq (hs : h.SameRoster h') : h'.roster = h.roster := by
  unfold roster
  rw [seats_eq_map h, seats_eq_map h', List.map_map, List.map_map, hs.size]
  exact List.map_congr_left fun j hj =>
    Prod.ext (hs.idAt j (List.mem_range.mp hj)) (hs.startingStack j (List.mem_range.mp hj))

theorem sum_roster_eq : (h.roster.map (·.2.value)).sum = h.total (·.startingStack.value) := by
  rw [← sum_seats_eq_total, roster, List.map_map]
  rfl

/-! ## The next seat to act -/

/-- A seat found by `next_pending_from` is in range and its player is pending. -/
theorem nextPendingFrom_eq_some {start : Nat} (hn : h.nextPendingFrom start = some i) :
    i < h.size ∧ h.idAt i ∈ h.pending := by
  unfold nextPendingFrom at hn
  have hp := List.find?_some hn
  have hm := List.mem_of_find?_eq_some hn
  simp only [List.mem_map, List.mem_range] at hm
  obtain ⟨k, hk, rfl⟩ := hm
  exact ⟨Nat.mod_lt _ (by omega), by simpa [idAt] using hp⟩

/-- Some seat is found as soon as one seat's player is pending: the offsets from
any start run through all seats. -/
theorem nextPendingFrom_isSome (start : Nat) (hi : i < h.size) (hp : h.idAt i ∈ h.pending) :
    ∃ j, h.nextPendingFrom start = some j := by
  rcases hn : h.nextPendingFrom start with _ | j
  · exfalso
    unfold nextPendingFrom at hn
    simp only [List.find?_eq_none, List.mem_map, List.mem_range] at hn
    refine hn i ⟨(i + (h.size - start % h.size)) % h.size, Nat.mod_lt _ (by omega), ?_⟩
      (by simpa [idAt] using hp)
    have hs : start % h.size < h.size := Nat.mod_lt _ (by omega)
    change (start + (i + (h.size - start % h.size)) % h.size) % h.size = i
    rw [Nat.add_mod_mod, ← Nat.mod_add_mod]
    have : start % h.size + (i + (h.size - start % h.size)) = i + h.size := by omega
    rw [this, Nat.add_mod_right, Nat.mod_eq_of_lt hi]
  · exact ⟨j, rfl⟩

end HoldemHand

end TokenHoldem
