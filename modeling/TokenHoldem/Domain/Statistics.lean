import Mathlib.Algebra.BigOperators.Group.Finset.Basic
import TokenHoldem.Domain.ReceiptForm

/-!
# Player statistics

`token-holdem-domain/src/statistics.rs`: the record of a player, added up from the receipts
of the hands. Every sum is checked, so the loop may stop half-way. What it stops for are
the number of hands and the two gross sums, which only grow: whether one of them gets too
large does not depend on the order of the receipts.

- `observe_eq_ok_iff` — one round of the loop, without its checks;
- `foldlM_observe_eq_ok_iff` — the whole loop: `Extends` says nothing about the order;
- `sum_resultOf`, `sum_results_eq_zero` — over all players the results cancel out;
- `statistics_lawful` — the order of the receipts does not matter, and nobody wins what
  nobody loses.
-/

namespace TokenHoldem

open Library List Chips HandOutcome

structure PlayerStatistics where
  completedHands : Nat
  grossWon : Chips
  grossLost : Chips
  netChips : Int
  largestWin : Chips
  largestLoss : Chips
deriving DecidableEq

inductive StatisticsError where
  | overflow
deriving DecidableEq

/-- `i128::checked_add`. -/
def checkedAddI128 (a b : Int) : Option Int :=
  if -2 ^ 127 ≤ a + b ∧ a + b < 2 ^ 127 then some (a + b) else none

/-- `i128::checked_abs`. -/
def checkedAbsI128 (a : Int) : Option Int :=
  if a = -2 ^ 127 then none else some |a|

/-- `u64::try_from` of an `i128`. -/
def Chips.ofInt? (a : Int) : Option Chips :=
  if h : 0 ≤ a ∧ a < 2 ^ 64 then some ⟨a.toNat, by omega⟩ else none

namespace PlayerStatistics

/-- The statistics of a player without hands. -/
def zero : PlayerStatistics where
  completedHands := 0
  grossWon := .zero
  grossLost := .zero
  netChips := 0
  largestWin := .zero
  largestLoss := .zero

/-- One round of the loop of `derive`, for a receipt that names the player. -/
def observe (statistics : PlayerStatistics) (delta : Int) :
    Except StatisticsError PlayerStatistics := do
  let completedHands ← okOr .overflow
    (if statistics.completedHands + 1 < 2 ^ 64 then some (statistics.completedHands + 1) else none)
  let netChips ← okOr .overflow (checkedAddI128 statistics.netChips delta)
  if 0 ≤ delta then
    let won ← okOr .overflow (ofInt? delta)
    let grossWon ← okOr .overflow (statistics.grossWon.checkedAdd won)
    return { statistics with
      completedHands, netChips, grossWon, largestWin := max statistics.largestWin won }
  else
    let absolute ← okOr .overflow (checkedAbsI128 delta)
    let lost ← okOr .overflow (ofInt? absolute)
    let grossLost ← okOr .overflow (statistics.grossLost.checkedAdd lost)
    return { statistics with
      completedHands, netChips, grossLost, largestLoss := max statistics.largestLoss lost }

def derive (player : PlayerId) (receipts : List HandReceipt) :
    Except StatisticsError PlayerStatistics :=
  receipts.foldlM (fun statistics receipt =>
    match receipt.searchOutcome player with
    | none => .ok statistics
    | some outcome => statistics.observe outcome.delta) zero

/-! ## The loop -/

/-- What the loop keeps of the statistics. -/
structure Balanced (s : PlayerStatistics) : Prop where
  counted : s.completedHands < 2 ^ 64
  net : s.netChips = s.grossWon.value - s.grossLost.value

theorem balanced_zero : zero.Balanced := ⟨by decide, rfl⟩

/-- `t` is `s` with some results added up. -/
structure Extends (s : PlayerStatistics) (deltas : List Int) (t : PlayerStatistics) : Prop where
  counted : t.completedHands < 2 ^ 64
  hands : t.completedHands = s.completedHands + deltas.length
  won : t.grossWon.value = s.grossWon.value + (deltas.map Int.toNat).sum
  lost : t.grossLost.value = s.grossLost.value + (deltas.map fun d => (-d).toNat).sum
  net : t.netChips = s.netChips + deltas.sum
  largestWin : t.largestWin.value = (deltas.map Int.toNat).foldl max s.largestWin.value
  largestLoss : t.largestLoss.value =
    (deltas.map fun d => (-d).toNat).foldl max s.largestLoss.value

variable {s t t' : PlayerStatistics} {delta : Int} {deltas deltas' : List Int}

theorem value_max (a b : Chips) : (max a b).value = max a.value b.value := by
  rcases le_total a b with h | h
  · rw [max_eq_right h, max_eq_right (le_iff_value.mp h)]
  · rw [max_eq_left h, max_eq_left (le_iff_value.mp h)]

theorem ext_values (hands : t.completedHands = t'.completedHands)
    (won : t.grossWon.value = t'.grossWon.value) (lost : t.grossLost.value = t'.grossLost.value)
    (net : t.netChips = t'.netChips) (largestWin : t.largestWin.value = t'.largestWin.value)
    (largestLoss : t.largestLoss.value = t'.largestLoss.value) : t = t' := by
  cases t
  cases t'
  simp only [PlayerStatistics.mk.injEq]
  exact ⟨hands, ext won, ext lost, net, ext largestWin, ext largestLoss⟩

/-- Their order does not matter. -/
theorem Extends.perm (h : s.Extends deltas t) (hperm : deltas.Perm deltas') :
    s.Extends deltas' t where
  counted := h.counted
  hands := hperm.length_eq ▸ h.hands
  won := (hperm.map Int.toNat).sum_eq ▸ h.won
  lost := (hperm.map fun d => (-d).toNat).sum_eq ▸ h.lost
  net := hperm.sum_eq ▸ h.net
  largestWin := h.largestWin.trans ((hperm.map _).foldl_eq _)
  largestLoss := h.largestLoss.trans ((hperm.map _).foldl_eq _)

theorem extends_nil_iff (balanced : s.Balanced) : s.Extends [] t ↔ t = s := by
  constructor
  · intro h
    exact ext_values h.hands h.won h.lost (by simpa using h.net) h.largestWin h.largestLoss
  · rintro rfl
    exact ⟨balanced.counted, rfl, rfl, rfl, by simp, rfl, rfl⟩

theorem Extends.balanced (h : s.Extends deltas t) (balanced : s.Balanced) : t.Balanced := by
  refine ⟨h.counted, ?_⟩
  have hsum : deltas.sum = (((deltas.map Int.toNat).sum : Nat) : Int) -
      (((deltas.map fun d => (-d).toNat).sum : Nat) : Int) := by
    clear h
    induction deltas with
    | nil => rfl
    | cons d ds ih =>
      simp only [sum_cons, map_cons, ih]
      omega
  have hnet := h.net
  have hwon := h.won
  have hlost := h.lost
  have hbalanced := balanced.net
  omega

/-- Adding up results one by one. -/
theorem extends_cons_iff :
    s.Extends (delta :: deltas) t ↔ ∃ u, s.Extends [delta] u ∧ u.Extends deltas t := by
  constructor
  · rintro ⟨counted, hands, won, lost, net, win, loss⟩
    simp only [length_cons, map_cons, sum_cons] at hands won lost net
    have hwon := t.grossWon.lt
    have hlost := t.grossLost.lt
    have hwin := s.largestWin.lt
    have hloss := s.largestLoss.lt
    -- the sums only grow, so they fit half-way too
    refine ⟨⟨s.completedHands + 1, ⟨s.grossWon.value + delta.toNat, by omega⟩,
      ⟨s.grossLost.value + (-delta).toNat, by omega⟩, s.netChips + delta,
      ⟨max s.largestWin.value delta.toNat, by omega⟩,
      ⟨max s.largestLoss.value (-delta).toNat, by omega⟩⟩, ?_, ?_⟩
    · exact ⟨show s.completedHands + 1 < 2 ^ 64 by omega, rfl, rfl, rfl, by simp, rfl, rfl⟩
    · refine ⟨counted, ?_, ?_, ?_, ?_, win, loss⟩
      all_goals dsimp only; omega
  · rintro ⟨u, hu, ht⟩
    have hhands := hu.hands
    have hwon := hu.won
    have hlost := hu.lost
    have hnet := hu.net
    simp only [length_singleton, map_singleton, sum_singleton] at hhands hwon hlost hnet
    refine ⟨ht.counted, ?_, ?_, ?_, ?_, ?_, ?_⟩
    · rw [ht.hands, hhands, length_cons]
      omega
    · rw [ht.won, hwon, map_cons, sum_cons, Nat.add_assoc]
    · rw [ht.lost, hlost, map_cons, sum_cons, Nat.add_assoc]
    · rw [ht.net, hnet, sum_cons, Int.add_assoc]
    · rw [ht.largestWin, hu.largestWin]
      rfl
    · rw [ht.largestLoss, hu.largestLoss]
      rfl

theorem ofInt?_eq_some {a : Int} {c : Chips} :
    ofInt? a = some c ↔ 0 ≤ a ∧ a < 2 ^ 64 ∧ c.value = a.toNat := by
  unfold ofInt?
  split
  · rename_i h
    simp only [Option.some.injEq, Chips.ext_iff, h, true_and]
    exact eq_comm
  · rename_i h
    simp only [reduceCtorEq, false_iff]
    tauto

/-- One round fails only when the number of hands or a gross sum gets too large: the net
sum lies between the two gross sums. -/
theorem observe_eq_ok_iff (balanced : s.Balanced) (low : -2 ^ 64 < delta) (high : delta < 2 ^ 64) :
    s.observe delta = .ok t ↔ s.Extends [delta] t := by
  have hwon := s.grossWon.lt
  have hlost := s.grossLost.lt
  have hnet := balanced.net
  have hadd : checkedAddI128 s.netChips delta = some (s.netChips + delta) := if_pos (by omega)
  unfold observe
  simp only [okOr_bind_eq_ok, Option.ite_none_right_eq_some, Option.some.injEq, hadd,
    exists_eq_left', and_assoc, exists_and_left]
  by_cases hsign : 0 ≤ delta
  · have hloss : (-delta).toNat = 0 := by omega
    simp only [if_pos hsign, okOr_bind_eq_ok, ofInt?_eq_some, checkedAdd_eq_some, pure,
      Except.pure, Except.ok.injEq]
    constructor
    · rintro ⟨hfits, won, ⟨-, -, hvalue⟩, gross, hgross, rfl⟩
      refine ⟨hfits, rfl, ?_, ?_, ?_, ?_, ?_⟩
      · simpa [hvalue] using hgross
      · simp [hloss]
      · simp
      · simp [value_max, hvalue]
      · simp [hloss]
    · intro h
      have hcounted := h.hands ▸ h.counted
      refine ⟨hcounted, ⟨delta.toNat, by omega⟩, ⟨hsign, high, rfl⟩, t.grossWon, ?_, ?_⟩
      · simpa using h.won
      · refine ext_values h.hands.symm rfl ?_ ?_ ?_ ?_
        · simpa [hloss] using h.lost.symm
        · simpa using h.net.symm
        · simpa [value_max] using h.largestWin.symm
        · simpa [hloss] using h.largestLoss.symm
  · have hwin : delta.toNat = 0 := by omega
    have habs : checkedAbsI128 delta = some (-delta) := by
      rw [checkedAbsI128, if_neg (by omega), abs_of_neg (by omega)]
    simp only [if_neg hsign, habs, okOr_bind_eq_ok, Option.some.injEq, exists_eq_left',
      ofInt?_eq_some, checkedAdd_eq_some, pure, Except.pure, Except.ok.injEq]
    constructor
    · rintro ⟨hfits, lost, ⟨-, -, hvalue⟩, gross, hgross, rfl⟩
      refine ⟨hfits, rfl, ?_, ?_, ?_, ?_, ?_⟩
      · simp [hwin]
      · simpa [hvalue] using hgross
      · simp
      · simp [hwin]
      · simp [value_max, hvalue]
    · intro h
      have hcounted := h.hands ▸ h.counted
      refine ⟨hcounted, ⟨(-delta).toNat, by omega⟩, ⟨by omega, by omega, rfl⟩, t.grossLost, ?_, ?_⟩
      · simpa using h.lost
      · refine ext_values h.hands.symm ?_ rfl ?_ ?_ ?_
        · simpa [hwin] using h.won.symm
        · simpa using h.net.symm
        · simpa [hwin] using h.largestWin.symm
        · simpa [value_max] using h.largestLoss.symm

/-- The whole loop fails only when the number of hands or a gross sum gets too large at its
end, wherever that happens first. -/
theorem foldlM_observe_eq_ok_iff (balanced : s.Balanced)
    (bounded : ∀ delta ∈ deltas, -2 ^ 64 < delta ∧ delta < 2 ^ 64) :
    deltas.foldlM observe s = .ok t ↔ s.Extends deltas t := by
  induction deltas generalizing s with
  | nil =>
    rw [extends_nil_iff balanced, foldlM_nil, pure, eq_comm]
    exact Except.ok.injEq t s ▸ Iff.rfl
  | cons delta deltas ih =>
    obtain ⟨⟨low, high⟩, hrest⟩ := forall_mem_cons.mp bounded
    rw [foldlM_cons, bind_eq_ok, extends_cons_iff]
    refine exists_congr fun u => ?_
    rw [observe_eq_ok_iff balanced low high]
    exact and_congr_right fun hu => ih (hu.balanced balanced) hrest

/-! ## Receipts -/

/-- The results of a player. -/
def results (player : PlayerId) (receipts : List HandReceipt) : List Int :=
  (receipts.filterMap fun receipt => receipt.searchOutcome player).map HandOutcome.delta

theorem delta_bounded (outcome : HandOutcome) :
    -2 ^ 64 < outcome.delta ∧ outcome.delta < 2 ^ 64 := by
  have hstart := outcome.startingStack.lt
  have hend := outcome.endingStack.lt
  unfold HandOutcome.delta
  omega

/-- The loop skips the receipts of other players. -/
theorem derive_eq (player : PlayerId) (receipts : List HandReceipt) :
    derive player receipts = (results player receipts).foldlM observe zero := by
  unfold derive results
  generalize zero = s
  induction receipts generalizing s with
  | nil => rfl
  | cons receipt receipts ih =>
    rw [foldlM_cons, filterMap_cons]
    cases hfound : receipt.searchOutcome player with
    | none => exact ih s
    | some outcome =>
      rw [map_cons, foldlM_cons]
      exact congrArg (s.observe outcome.delta >>= ·) (funext ih)

theorem derive_eq_ok_iff {player : PlayerId} {receipts : List HandReceipt} :
    derive player receipts = .ok t ↔ zero.Extends (results player receipts) t := by
  rw [derive_eq]
  refine foldlM_observe_eq_ok_iff balanced_zero fun delta hdelta => ?_
  obtain ⟨outcome, -, rfl⟩ := mem_map.mp hdelta
  exact delta_bounded outcome

/-- The order of the receipts does not matter, not even for whether the sums fit. -/
theorem derive_perm {player : PlayerId} {receipts receipts' : List HandReceipt}
    (hperm : receipts.Perm receipts') : derive player receipts = derive player receipts' := by
  have hdeltas : (results player receipts).Perm (results player receipts') :=
    (hperm.filterMap _).map _
  have hok : ∀ s, derive player receipts = .ok s ↔ derive player receipts' = .ok s := by
    intro s
    rw [derive_eq_ok_iff, derive_eq_ok_iff]
    exact ⟨fun h => h.perm hdeltas, fun h => h.perm hdeltas.symm⟩
  cases h : derive player receipts with
  | ok s => exact ((hok s).mp h).symm
  | error e =>
    cases h' : derive player receipts' with
    | ok s => exact absurd (h.symm.trans ((hok s).mpr h')) (by simp)
    | error e' =>
      cases e
      cases e'
      rfl

/-- The largest result is one of those in the sum. -/
theorem foldl_max_le (l : List Nat) (a : Nat) : l.foldl max a ≤ a + l.sum := by
  induction l generalizing a with
  | nil => exact Nat.le_add_right a 0
  | cons b l ih =>
    have h := ih (max a b)
    rw [foldl_cons, sum_cons]
    omega

end PlayerStatistics

/-! ## All players -/

namespace HandReceipt

variable {receipt : HandReceipt} {player : PlayerId}

theorem sumStacks_totals {outcomes : List HandOutcome} {devices : List DevicePublicKey}
    {start finish : Nat} {totals : Nat × Nat}
    (h : sumStacks devices (start, finish) outcomes = .ok totals) :
    totals = (start + (outcomes.map (·.startingStack.value)).sum,
      finish + (outcomes.map (·.endingStack.value)).sum) := by
  induction outcomes generalizing devices start finish with
  | nil => exact (Except.ok.inj h).symm
  | cons outcome rest ih =>
    rw [sumStacks, ensure_bind_eq_ok, okOr_bind_eq_ok] at h
    obtain ⟨-, totalStart, hstart, h⟩ := h
    obtain ⟨totalEnd, hend, h⟩ := okOr_bind_eq_ok.mp h
    rw [ih h, checkedAdd128_eq_some hstart, checkedAdd128_eq_some hend]
    simp only [map_cons, sum_cons, Nat.add_assoc]

/-- The results of a valid receipt cancel out. -/
theorem sum_delta_of_validate (valid : receipt.validate = .ok ()) :
    (receipt.outcomes.map HandOutcome.delta).sum = 0 := by
  unfold validate at valid
  obtain ⟨-, valid⟩ := ensure_bind_eq_ok.mp valid
  obtain ⟨-, valid⟩ := ensure_bind_eq_ok.mp valid
  obtain ⟨-, valid⟩ := ensure_bind_eq_ok.mp valid
  obtain ⟨-, valid⟩ := unit_bind_eq_ok.mp valid
  obtain ⟨totals, hsums, hequal⟩ := bind_eq_ok.mp valid
  have hequal := ensure_eq_ok.mp hequal
  rw [sumStacks_totals hsums, Nat.zero_add, Nat.zero_add] at hequal
  have hdelta : ∀ outcomes : List HandOutcome, (outcomes.map HandOutcome.delta).sum =
      (((outcomes.map (·.endingStack.value)).sum : Nat) : Int) -
        (((outcomes.map (·.startingStack.value)).sum : Nat) : Int) := by
    intro outcomes
    induction outcomes with
    | nil => rfl
    | cons outcome rest ih =>
      simp only [map_cons, sum_cons, HandOutcome.delta, ih]
      omega
  rw [hdelta]
  dsimp only at hequal
  omega

/-- The result of a player, zero when the receipt does not name them. -/
def resultOf (receipt : HandReceipt) (player : PlayerId) : Int :=
  ((receipt.searchOutcome player).map HandOutcome.delta).getD 0

theorem resultOf_playerId (valid : receipt.validate = .ok ()) {outcome : HandOutcome}
    (houtcome : outcome ∈ receipt.outcomes) :
    receipt.resultOf outcome.playerId = outcome.delta := by
  rw [resultOf, (searchOutcome_eq_some_iff valid).mpr ⟨houtcome, rfl⟩]
  rfl

theorem resultOf_eq_zero (valid : receipt.validate = .ok ())
    (hplayer : player ∉ receipt.outcomes.map playerId) :
    receipt.resultOf player = 0 := by
  rw [resultOf]
  cases hfound : receipt.searchOutcome player with
  | none => rfl
  | some outcome =>
    obtain ⟨houtcome, hsame⟩ := (searchOutcome_eq_some_iff valid).mp hfound
    exact absurd (hsame ▸ mem_map_of_mem houtcome) hplayer

/-- Over any set of players that has all those of the receipt. -/
theorem sum_resultOf (valid : receipt.validate = .ok ()) {players : Finset PlayerId}
    (hplayers : ∀ outcome ∈ receipt.outcomes, outcome.playerId ∈ players) :
    ∑ player ∈ players, receipt.resultOf player = 0 := by
  have hsubset : (receipt.outcomes.map playerId).toFinset ⊆ players := by
    intro player hplayer
    obtain ⟨outcome, houtcome, rfl⟩ := mem_map.mp (mem_toFinset.mp hplayer)
    exact hplayers outcome houtcome
  have hnodup : (receipt.outcomes.map playerId).Nodup :=
    (pairwise_map.mpr (sorted_of_validate valid).2.2.2).imp fun h => h.ne
  calc ∑ player ∈ players, receipt.resultOf player
      = ∑ player ∈ (receipt.outcomes.map playerId).toFinset, receipt.resultOf player := by
        refine (Finset.sum_subset hsubset fun player _ hplayer => ?_).symm
        exact resultOf_eq_zero valid fun h => hplayer (mem_toFinset.mpr h)
    _ = (receipt.outcomes.map HandOutcome.delta).sum := by
        rw [sum_toFinset _ hnodup, map_map]
        refine congrArg sum (map_congr_left fun outcome houtcome => ?_)
        exact resultOf_playerId valid houtcome
    _ = 0 := sum_delta_of_validate valid

/-- The players that the receipts name. -/
def players (receipts : List HandReceipt) : Finset PlayerId :=
  (receipts.flatMap fun receipt => receipt.outcomes.map playerId).toFinset

end HandReceipt

namespace PlayerStatistics

open HandReceipt

theorem sum_results_cons (player : PlayerId) (receipt : HandReceipt) (receipts : List HandReceipt) :
    (results player (receipt :: receipts)).sum =
      receipt.resultOf player + (results player receipts).sum := by
  unfold results resultOf
  rw [filterMap_cons]
  cases receipt.searchOutcome player with
  | none => exact (Int.zero_add _).symm
  | some outcome => exact sum_cons

/-- The results of all hands cancel out too: the sum over the players is exchanged with the
one over the receipts. -/
theorem sum_results_eq_zero {receipts : List HandReceipt}
    (valid : ∀ receipt ∈ receipts, receipt.validate = .ok ()) {everyone : Finset PlayerId}
    (hnamed : ∀ receipt ∈ receipts, ∀ outcome ∈ receipt.outcomes, outcome.playerId ∈ everyone) :
    ∑ player ∈ everyone, (results player receipts).sum = 0 := by
  induction receipts with
  | nil => exact Finset.sum_eq_zero fun _ _ => rfl
  | cons receipt receipts ih =>
    simp only [sum_results_cons, Finset.sum_add_distrib]
    rw [sum_resultOf (valid receipt mem_cons_self) (hnamed receipt mem_cons_self),
      ih (fun r hr => valid r (mem_cons_of_mem _ hr))
        fun r hr => hnamed r (mem_cons_of_mem _ hr), Int.add_zero]

/-- The statistics of valid receipts: their order does not matter, not even for an
overflow; the net chips are what is won less what is lost, no single result exceeds the sum
it is part of; and over all players the net chips add up to nothing. -/
theorem statistics_lawful :
    (∀ receipts receipts' : List HandReceipt, (∀ receipt ∈ receipts, receipt.validate = .ok ()) →
      receipts.Perm receipts' → ∀ player, derive player receipts = derive player receipts') ∧
    (∀ receipts : List HandReceipt, (∀ receipt ∈ receipts, receipt.validate = .ok ()) →
      ∀ player statistics, derive player receipts = .ok statistics →
        statistics.netChips = statistics.grossWon.value - statistics.grossLost.value ∧
        statistics.largestWin ≤ statistics.grossWon ∧
        statistics.largestLoss ≤ statistics.grossLost) ∧
    ∀ receipts : List HandReceipt, (∀ receipt ∈ receipts, receipt.validate = .ok ()) →
      ∀ statistics : PlayerId → PlayerStatistics,
        (∀ player ∈ players receipts, derive player receipts = .ok (statistics player)) →
        ∑ player ∈ players receipts, (statistics player).netChips = 0 := by
  refine ⟨fun _ _ _ hperm _ => derive_perm hperm, fun receipts _ player statistics h => ?_,
    fun receipts valid statistics h => ?_⟩
  · have hextends := derive_eq_ok_iff.mp h
    refine ⟨(hextends.balanced balanced_zero).net, ?_, ?_⟩
    · rw [le_iff_value, hextends.largestWin, hextends.won]
      exact foldl_max_le _ _
    · rw [le_iff_value, hextends.largestLoss, hextends.lost]
      exact foldl_max_le _ _
  · have hnet : ∀ player ∈ players receipts,
        (statistics player).netChips = (results player receipts).sum := by
      intro player hplayer
      exact (derive_eq_ok_iff.mp (h player hplayer)).net.trans (Int.zero_add _)
    rw [Finset.sum_congr rfl hnet]
    refine sum_results_eq_zero valid fun receipt hreceipt outcome houtcome => ?_
    exact mem_toFinset.mpr
      (mem_flatMap.mpr ⟨receipt, hreceipt, mem_map_of_mem houtcome⟩)

/-- A hand of two players, with the stack that the first one ends with. -/
def pairReceipt (handNumber : UInt64) (left : Nat) : HandReceipt :=
  form (FixedBytes.ofNat 77) handNumber "1-2" (FixedBytes.ofNat 0) 20
    [⟨.ofNat 1, .ofNat 11, chips 100, chips left⟩,
      ⟨.ofNat 2, .ofNat 12, chips 100, chips (200 - left)⟩]

/-- The first player loses a hand and wins one. -/
def pairReceipts : List HandReceipt := [pairReceipt 1 60, pairReceipt 2 130]

theorem statistics_lawful_pair :
    ∃ first second, derive (.ofNat 1) pairReceipts = .ok first ∧
      derive (.ofNat 2) pairReceipts = .ok second ∧
      derive (.ofNat 1) pairReceipts.reverse = .ok first ∧
      first.netChips = first.grossWon.value - first.grossLost.value ∧
      first.largestWin ≤ first.grossWon ∧ first.largestLoss ≤ first.grossLost ∧
      ∑ player ∈ players pairReceipts,
        (if player = .ofNat 1 then first else second).netChips = 0 := by
  have hvalid : ∀ receipt ∈ pairReceipts, receipt.validate = .ok () := by
    decide +kernel
  have hderived : ∃ first, derive (.ofNat 1) pairReceipts = .ok first ∧
      ∃ second, derive (.ofNat 2) pairReceipts = .ok second ∧
      ∀ player ∈ players pairReceipts,
        derive player pairReceipts = .ok (if player = .ofNat 1 then first else second) := by
    decide +kernel
  obtain ⟨first, hfirst, second, hsecond, hall⟩ := hderived
  obtain ⟨horder, hsums, hzero⟩ := statistics_lawful
  obtain ⟨hnet, hwin, hloss⟩ := hsums _ hvalid _ _ hfirst
  exact ⟨first, second, hfirst, hsecond,
    (horder _ _ hvalid (reverse_perm _).symm _).symm.trans hfirst, hnet, hwin, hloss,
    hzero _ hvalid _ hall⟩

end PlayerStatistics

end TokenHoldem
