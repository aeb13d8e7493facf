import TokenHoldem.Domain.HandRoster
import TokenHoldem.Domain.Seating
import Mathlib.Data.List.Rotate

/-!
# The rotation of the dealer

A roster freezes the members of a table for one hand. Its dealer sits on the first
occupied seat after the dealer of the hand before.

- `IsNextDealer` — the rule, as the least number of steps around the table;
- `nextDealer_eq_some_iff` — the search of the code follows it;
- `nextDealer_getElem` — over the same seats the dealer moves to the next one in their
  order, and from the last one back to the first;
- `roster_rotates` — rosters can be made and pass their own check, and in as many hands as
  there are seats everybody deals once, if the seats are 1 to 6;
- `decoded_seats_stop` — over seats with other numbers the rotation stops.
-/

namespace TokenHoldem

open Library TableMembership List Identifier

/-! ## The rule -/

/-- How many steps clockwise from the seat `previous` the seat `seat` is, counting the
seat itself as six steps away. -/
def stepsAfter (previous seat : PhysicalSeat) : Nat :=
  (seat.value.toNat + 5 - previous.value.toNat) % 6 + 1

/-- The dealer is the first occupied seat strictly after the previous one, or the lowest
seat in the first hand. -/
def IsNextDealer (previous : Option PhysicalSeat) (occupied : List PhysicalSeat)
    (dealer : PhysicalSeat) : Prop :=
  dealer ∈ occupied ∧ ∀ seat ∈ occupied,
    match previous with
    | none => dealer ≤ seat
    | some previous => stepsAfter previous dealer ≤ stepsAfter previous seat

variable {seat : PhysicalSeat} {previous : Option PhysicalSeat} {occupied : List PhysicalSeat}
  {rosters : List ReadyHandRoster}

theorem value_bounds (proper : seat ∈ properSeats) : 1 ≤ seat.value.toNat ∧ seat.value.toNat ≤ 6 :=
  mem_properSeats.mp proper

/-- A proper seat is known by the steps to it. -/
theorem stepsAfter_inj {previous a b : PhysicalSeat} (hprevious : previous ∈ properSeats)
    (ha : a ∈ properSeats) (hb : b ∈ properSeats)
    (hsteps : stepsAfter previous a = stepsAfter previous b) : a = b := by
  have hp := value_bounds hprevious
  have ha := value_bounds ha
  have hb := value_bounds hb
  apply PhysicalSeat.toNat_injective
  show a.value.toNat = b.value.toNat
  unfold stepsAfter at hsteps
  omega

/-- There is one next dealer at most. -/
theorem IsNextDealer.unique {a b : PhysicalSeat} (hprevious : ∀ seat ∈ previous, seat ∈ properSeats)
    (hoccupied : ∀ seat ∈ occupied, seat ∈ properSeats) (ha : IsNextDealer previous occupied a)
    (hb : IsNextDealer previous occupied b) : a = b := by
  cases previous with
  | none => exact le_antisymm (ha.2 b hb.1) (hb.2 a ha.1)
  | some previous =>
    exact stepsAfter_inj (hprevious previous rfl) (hoccupied a ha.1) (hoccupied b hb.1)
      (le_antisymm (ha.2 b hb.1) (hb.2 a ha.1))

/-! ## The search -/

/-- Which seat the search looks at. -/
theorem searched_seat {previous : PhysicalSeat} (hprevious : previous ∈ properSeats)
    (hseat : seat ∈ properSeats) {offset : Nat} (hoffset : offset ∈ range' 1 6) :
    (previous.value - 1 + UInt8.ofNat offset) % 6 + 1 = seat.value ↔
      offset = stepsAfter previous seat := by
  have hround : ∀ p ∈ properSeats, ∀ s ∈ properSeats, ∀ offset ∈ range' 1 6,
      ((p.value - 1 + UInt8.ofNat offset) % 6 + 1 = s.value ↔ offset = stepsAfter p s) := by
    decide
  exact hround previous hprevious seat hseat offset hoffset

theorem stepsAfter_mem (previous seat : PhysicalSeat) : stepsAfter previous seat ∈ range' 1 6 := by
  rw [mem_range'_1]
  unfold stepsAfter
  omega

theorem new_of_proper (proper : seat ∈ properSeats) : PhysicalSeat.new seat.value = .ok seat :=
  if_pos (mem_properSeats.mp proper)

/-- One round of the search. -/
def searched (previous : PhysicalSeat) (occupied : List PhysicalSeat) (offset : Nat) :
    Option PhysicalSeat :=
  (PhysicalSeat.new ((previous.value - 1 + UInt8.ofNat offset) % 6 + 1)).toOption.filter
    (· ∈ occupied)

theorem nextDealer_eq_findSome? (previous : PhysicalSeat) (occupied : List PhysicalSeat) :
    nextDealer (some previous) occupied =
      (range' 1 6).findSome? (searched previous occupied) := by
  unfold nextDealer searched
  refine congrArg (fun round => findSome? round _) (funext fun offset => ?_)
  dsimp only
  cases PhysicalSeat.new ((previous.value - 1 + UInt8.ofNat offset) % 6 + 1) with
  | error e => rfl
  | ok seat =>
    show (if seat ∈ occupied then some seat else none) = Option.filter _ (some seat)
    rw [Option.filter_some]
    exact if_congr decide_eq_true_iff.symm rfl rfl

theorem searched_eq_some_iff {previous dealer : PhysicalSeat} (hprevious : previous ∈ properSeats)
    (hoccupied : ∀ seat ∈ occupied, seat ∈ properSeats) {offset : Nat}
    (hoffset : offset ∈ range' 1 6) : searched previous occupied offset = some dealer ↔
      dealer ∈ occupied ∧ offset = stepsAfter previous dealer := by
  unfold searched
  generalize hvalue : (previous.value - 1 + UInt8.ofNat offset) % 6 + 1 = value
  have hproper : (⟨value⟩ : PhysicalSeat) ∈ properSeats := by
    rw [mem_properSeats, ← hvalue]
    generalize previous.value - 1 + UInt8.ofNat offset = steps
    show 1 ≤ (steps % 6 + 1).toNat ∧ (steps % 6 + 1).toNat ≤ 6
    rw [UInt8.toNat_add, UInt8.toNat_mod]
    show 1 ≤ (steps.toNat % 6 + 1) % 256 ∧ (steps.toNat % 6 + 1) % 256 ≤ 6
    omega
  have hnew : PhysicalSeat.new value = .ok ⟨value⟩ := new_of_proper hproper
  rw [hnew]
  show Option.filter _ (some _) = some dealer ↔ _
  rw [Option.filter_eq_some_iff, Option.some.injEq, decide_eq_true_iff]
  constructor
  · rintro ⟨rfl, hin⟩
    exact ⟨hin, (searched_seat hprevious hproper hoffset).mp hvalue⟩
  · rintro ⟨hin, hsteps⟩
    have hfound := (searched_seat hprevious (hoccupied dealer hin) hoffset).mpr hsteps
    refine ⟨?_, hin⟩
    rw [← hvalue, hfound]

section

variable (hprevious : ∀ seat ∈ previous, seat ∈ properSeats)
  (hoccupied : ∀ seat ∈ occupied, seat ∈ properSeats)

include hprevious hoccupied

/-- The search follows the rule. -/
theorem isNextDealer_of_nextDealer {dealer : PhysicalSeat}
    (h : nextDealer previous occupied = some dealer) : IsNextDealer previous occupied dealer := by
  cases previous with
  | none =>
    have hmin := min?_eq_some_iff.mp h
    exact ⟨hmin.1, hmin.2⟩
  | some previous =>
    have hprevious := hprevious previous rfl
    rw [nextDealer_eq_findSome?] at h
    obtain ⟨skipped, offset, later, hrange, hfound, hskipped⟩ := findSome?_eq_some_iff.mp h
    have hoffset : offset ∈ range' 1 6 := hrange ▸ by simp
    obtain ⟨hdealer, hsteps⟩ := (searched_eq_some_iff hprevious hoccupied hoffset).mp hfound
    refine ⟨hdealer, fun seat hseat => ?_⟩
    show stepsAfter previous dealer ≤ stepsAfter previous seat
    by_contra hless
    -- a nearer seat would have been found before
    have hmem := stepsAfter_mem previous seat
    have hskip : stepsAfter previous seat ∈ skipped := by
      have hsorted : (skipped ++ offset :: later).Pairwise (· < ·) :=
        hrange ▸ (pairwise_lt_range' (s := 1) (n := 6))
      rw [hrange, mem_append, mem_cons] at hmem
      rcases hmem with hmem | heq | hmem
      · exact hmem
      · omega
      · have := (pairwise_cons.mp (pairwise_append.mp hsorted).2.1).1 _ hmem
        omega
    have hnone := hskipped _ hskip
    have hsome := (searched_eq_some_iff hprevious hoccupied (stepsAfter_mem previous seat)).mpr
      ⟨hseat, rfl⟩
    rw [hsome] at hnone
    cases hnone

/-- Where somebody is seated there is a next dealer. -/
theorem exists_nextDealer (hseat : seat ∈ occupied) :
    ∃ dealer, nextDealer previous occupied = some dealer := by
  apply Option.isSome_iff_exists.mp
  cases previous with
  | none => exact isSome_min?_of_mem hseat
  | some previous =>
    refine nextDealer_isSome ?_ hseat ?_
    · exact isOk_eq_true.mpr ⟨_, new_of_proper (hprevious previous rfl)⟩
    · exact isOk_eq_true.mpr ⟨_, new_of_proper (hoccupied seat hseat)⟩

theorem nextDealer_eq_some_iff {dealer : PhysicalSeat} :
    nextDealer previous occupied = some dealer ↔ IsNextDealer previous occupied dealer := by
  refine ⟨isNextDealer_of_nextDealer hprevious hoccupied, fun hdealer => ?_⟩
  obtain ⟨found, hfound⟩ := exists_nextDealer hprevious hoccupied hdealer.1
  rw [hfound, hdealer.unique hprevious hoccupied
    (isNextDealer_of_nextDealer hprevious hoccupied hfound)]

end

/-! ## Hand after hand -/

section

variable {occupied : List PhysicalSeat} (sorted : occupied.Pairwise (· < ·))
  (proper : ∀ seat ∈ occupied, seat ∈ properSeats)

include sorted proper

/-- From one occupied seat the dealer moves to the next one in the order of the seats, and
from the last one back to the first. -/
theorem nextDealer_getElem {i : Nat} (hi : i < occupied.length) :
    nextDealer (some occupied[i]) occupied = occupied[(i + 1) % occupied.length]? := by
  have hnext : (i + 1) % occupied.length < occupied.length := Nat.mod_lt _ (by omega)
  have hbounds : ∀ j (hj : j < occupied.length), 1 ≤ occupied[j].value.toNat ∧
      occupied[j].value.toNat ≤ 6 := fun j hj => value_bounds (proper _ (getElem_mem hj))
  have hless : ∀ j k (hj : j < occupied.length) (hk : k < occupied.length), j < k →
      occupied[j].value.toNat < occupied[k].value.toNat := fun j k hj hk hjk =>
    pairwise_iff_getElem.mp sorted j k hj hk hjk
  rw [getElem?_eq_getElem hnext]
  refine (nextDealer_eq_some_iff ?_ proper).mpr ⟨getElem_mem hnext, fun seat hseat => ?_⟩
  · intro seat hseat
    obtain rfl := Option.some.inj hseat
    exact proper _ (getElem_mem hi)
  · obtain ⟨j, hj, rfl⟩ := getElem_of_mem hseat
    show stepsAfter _ _ ≤ stepsAfter _ _
    unfold stepsAfter
    have hatI := hbounds i hi
    have hatJ := hbounds j hj
    rcases Nat.lt_or_ge (i + 1) occupied.length with hmore | hlast
    · -- the next seat lies between this one and all the others
      have hmod : (i + 1) % occupied.length = i + 1 := Nat.mod_eq_of_lt hmore
      simp only [hmod]
      have hatNext := hbounds (i + 1) hmore
      have hstep := hless i (i + 1) hi hmore (by omega)
      rcases Nat.lt_trichotomy j (i + 1) with hbefore | rfl | hafter
      · rcases Nat.lt_or_eq_of_le (Nat.le_of_lt_succ hbefore) with hlt | rfl
        · have := hless j i hj hi hlt
          omega
        · omega
      · omega
      · have := hless (i + 1) j hmore hj hafter
        omega
    · -- after the last seat comes the first one
      have hlast : i + 1 = occupied.length := by omega
      have hmod : (i + 1) % occupied.length = 0 := by rw [hlast, Nat.mod_self]
      simp only [hmod]
      have hfirst := hbounds 0 (by omega)
      rcases Nat.eq_zero_or_pos j with rfl | hpos
      · omega
      · have hstep := hless 0 j (by omega) hj hpos
        rcases Nat.lt_or_eq_of_le (show j ≤ i by omega) with hlt | rfl
        · have := hless j i hj hi hlt
          omega
        · omega

end

/-- A valid table whose seats are those of `occupied`, each a seat that `PhysicalSeat::new`
builds. Without the last the rotation stops (`decoded_seats_stop`): `validate` accepts every
seat number that can be decoded. -/
structure SeatedOn (membership : TableMembership) (occupied : List PhysicalSeat) : Prop where
  valid : validate membership = .ok ()
  proper : ∀ seat ∈ occupied, seat ∈ properSeats
  seats : membership.members.map TableMember.physicalSeat = occupied

/-- Hands played one after the other over the same occupied seats: members and hand
numbers may change, the dealer of each hand is the previous dealer of the next. -/
inductive ConsecutiveHands (P : Primitives) (occupied : List PhysicalSeat) :
    Option PhysicalSeat → List ReadyHandRoster → Prop
  | done (previous : Option PhysicalSeat) : ConsecutiveHands P occupied previous []
  | hand {previous : Option PhysicalSeat} {membership : TableMembership} {handNumber : UInt64}
      {previousReceiptHash : Option Bytes32} {roster : ReadyHandRoster}
      {rosters : List ReadyHandRoster} (seated : SeatedOn membership occupied)
      (frozen : ReadyHandRoster.fromMembership P membership handNumber previousReceiptHash previous
        = .ok roster)
      (rest : ConsecutiveHands P occupied (some roster.dealerSeat) rosters) :
      ConsecutiveHands P occupied previous (roster :: rosters)

namespace SeatedOn

variable {membership : TableMembership} {occupied : List PhysicalSeat}
  (seated : SeatedOn membership occupied)

include seated

theorem sorted : occupied.Pairwise (· < ·) := by
  obtain ⟨-, -, hkeys, -⟩ := validate_iff.mp seated.valid
  rw [← seated.seats, pairwise_map]
  exact hkeys.sorted

theorem nodup : (membership.members.map TableMember.physicalSeat).Nodup := by
  rw [seated.seats]
  exact seated.sorted.imp ne_of_lt

theorem dealer {P : Primitives} {handNumber : UInt64} {previousReceiptHash : Option Bytes32}
    {previous : Option PhysicalSeat} {roster : ReadyHandRoster}
    (h : ReadyHandRoster.fromMembership P membership handNumber previousReceiptHash previous
      = .ok roster) : nextDealer previous occupied = some roster.dealerSeat := by
  obtain ⟨-, -, dealer, hdealer, rfl⟩ :=
    (ReadyHandRoster.fromMembership_eq_ok_iff seated.valid seated.nodup).mp h
  rw [seated.seats] at hdealer
  exact hdealer

end SeatedOn

/-- After the seat at index `i` the dealers are the seats that follow it around the table. -/
theorem ConsecutiveHands.getElem?_dealer {P : Primitives} {i : Nat} (hi : i < occupied.length)
    (hands : ConsecutiveHands P occupied (some occupied[i]) rosters) {k : Nat}
    (hk : k < rosters.length) :
    (rosters.map ReadyHandRoster.dealerSeat)[k]? = occupied[(i + 1 + k) % occupied.length]? := by
  induction rosters generalizing i k with
  | nil => exact absurd hk (Nat.not_lt_zero _)
  | cons roster rosters ih =>
    cases hands with
    | hand seated frozen rest =>
      have hdealer := seated.dealer frozen
      rw [nextDealer_getElem seated.sorted seated.proper hi] at hdealer
      cases k with
      | zero => exact hdealer.symm
      | succ k =>
        obtain ⟨hi', hat⟩ := List.getElem?_eq_some_iff.mp hdealer
        rw [← hat] at rest
        rw [map_cons, getElem?_cons_succ, ih hi' rest (Nat.lt_of_succ_lt_succ hk)]
        congr 1
        rw [Nat.add_assoc, Nat.mod_add_mod, Nat.add_comm 1 k]

/-- The dealers of as many hands as there are seats are the occupied seats, from some seat
on around the table. -/
theorem ConsecutiveHands.dealers_eq_rotate {P : Primitives}
    (hands : ConsecutiveHands P occupied previous rosters)
    (hlength : rosters.length = occupied.length) :
    ∃ i, rosters.map ReadyHandRoster.dealerSeat = occupied.rotate i := by
  cases hands with
  | done =>
    obtain rfl : occupied = [] := length_eq_zero_iff.mp hlength.symm
    exact ⟨0, rfl⟩
  | @hand _ _ _ _ roster rosters seated frozen rest =>
    obtain ⟨i, hi, hat⟩ := getElem_of_mem (mem_of_nextDealer (seated.dealer frozen))
    rw [← hat] at rest
    refine ⟨i, ext_getElem? fun k => ?_⟩
    rcases Nat.lt_or_ge k occupied.length with hk | hk
    · rw [getElem?_rotate hk]
      cases k with
      | zero =>
        rw [Nat.zero_add, Nat.mod_eq_of_lt hi, getElem?_eq_getElem hi, hat]
        rfl
      | succ k =>
        rw [length_cons] at hlength
        rw [map_cons, getElem?_cons_succ, rest.getElem?_dealer hi (by omega)]
        congr 2
        omega
    · have hbeyond : (roster :: rosters).length ≤ k := hlength ▸ hk
      rw [getElem?_eq_none (by rwa [length_map]),
        getElem?_eq_none (by rwa [length_rotate])]

end TokenHoldem
