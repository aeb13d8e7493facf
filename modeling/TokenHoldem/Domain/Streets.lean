import TokenHoldem.Domain.Awards
import TokenHoldem.Domain.Turns

/-!
# Streets and turns taken

What happens after an action: the hand ends, the street advances, or the next
pending seat is asked. `advanceStreet_eq` is the recursion of the source;
`advanceStreet_run` shows that from a betting round it always ends in another one
or in the showdown. `act_eq_ok` takes a successful `act` apart on every street,
finished hands included.
-/

namespace TokenHoldem

open Library HoldemHand EStateM Street

variable {h h' : HoldemHand} {i : Nat} {p : PlayerId} {a : PlayerAction} {out : ActionOutcome}

/-! ## The recursion of `advance_street` -/

/-- How many streets lie ahead. -/
def Street.left : Street → Nat
  | .preflop => 4
  | .flop => 3
  | .turn => 2
  | .river => 1
  | .showdown => 0
  | .complete => 0

theorem Street.left_next? {s t : Street} (h : s.next? = some t) : t.left + 1 = s.left := by
  cases s <;> cases h <;> rfl

@[simp] theorem openStreet_street (h : HoldemHand) : h.openStreet.street = h.street := rfl

/-- `advance_street` calls itself on hands with fewer streets left only. -/
theorem advanceStreetStep_congr {again again' : HandM ActionOutcome}
    (hagain : ∀ g : HoldemHand, g.street.left < h.street.left → again.run g = again'.run g) :
    (advanceStreetStep again).run h = (advanceStreetStep again').run h := by
  rw [advanceStreetStep, advanceStreetStep]
  simp only [run_bind, run_get]
  rcases hs : h.street.next? with _ | s
  · simp
  · have := left_next? hs
    simp only [run_orThrow_some, run_modify]
    split
    · rfl
    · simp only [run_bind, run_get, run_modify]
      split
      · simp only [run_bind, run_modify]
        exact hagain _ (by simp; omega)
      · rfl

/-- One more call does not matter once there are enough of them. -/
theorem advanceStreetWithin_succ : ∀ (n : Nat) (h : HoldemHand), h.street.left ≤ n →
    (advanceStreetWithin (n + 1)).run h = (advanceStreetWithin n).run h := by
  intro n
  induction n with
  | zero =>
    intro h hle
    have hnone : h.street.next? = none := by
      cases hs : h.street <;> simp_all [left, next?]
    change (advanceStreetStep (advanceStreetWithin 0)).run h = _
    rw [advanceStreetStep]
    simp only [run_bind, run_get, hnone, run_orThrow_none]
    rfl
  | succ n ih => exact fun h hle => advanceStreetStep_congr fun g hg => ih g (by omega)

/-- `advance_street` calls itself. -/
theorem advanceStreet_eq : advanceStreet = advanceStreetStep advanceStreet := by
  funext h
  have hle : h.street.left ≤ 5 := by cases h.street <;> decide
  exact (advanceStreetWithin_succ 5 h hle).symm

/-! ## Opening a street -/

theorem size_openStreet (h : HoldemHand) : h.openStreet.size = h.size := by
  simp [openStreet, resetPendingForStreet, size]

theorem seatAt_openStreet (hi : i < h.size) :
    h.openStreet.seatAt i = { h.seatAt i with streetCommitted := Chips.zero } := by
  have hi' : i < h.seats.length := hi
  simp [openStreet, resetPendingForStreet, seatAt, hi']

theorem idAt_openStreet (hi : i < h.size) : h.openStreet.idAt i = h.idAt i := by
  unfold idAt
  rw [seatAt_openStreet hi]

/-- Every street is opened with the active seats pending. -/
theorem HoldemHand.InTurn.openStreet (ht : h.InTurn) : h.openStreet.InTurn where
  dealer_lt := by
    rw [size_openStreet]
    exact ht.dealer_lt
  distinct := by
    intro j hj k hk
    rw [size_openStreet] at hj hk
    rw [idAt_openStreet hj, idAt_openStreet hk]
    exact ht.distinct j hj k hk
  pending_active := by
    intro q hq
    obtain ⟨j, hj, hid, hactive, -⟩ := mem_actionablePlayers.mp hq
    exact ⟨j, hj, hid, hactive⟩
  rights := Finset.Subset.refl _
  next_lt := fun _ hk => (nextPendingFrom_eq_some hk).1

/-- A new street starts with nobody having bet. -/
theorem HoldemHand.InTurn.turns_openStreet (ht : h.openStreet.InTurn) : h.openStreet.Turns := by
  refine ht.turns rfl fun j hj => ?_
  rw [size_openStreet] at hj
  rw [seatAt_openStreet hj]
  exact Nat.zero_le _

/-- The streets with a betting round. -/
def Street.IsBetting (s : Street) : Prop := s.next?.isSome

instance : DecidablePred IsBetting := fun s => inferInstanceAs (Decidable (s.next?.isSome))

/-- What a call of `advance_street` keeps: players and chips. -/
structure HoldemHand.SameChips (h h' : HoldemHand) : Prop where
  level : h'.level = h.level
  size : h'.size = h.size
  seat : ∀ j < h.size, ∃ street, h'.seatAt j = { h.seatAt j with streetCommitted := street } ∧
    street.value ≤ (h.seatAt j).streetCommitted.value

namespace HoldemHand.SameChips

theorem of_eq (hseats : h'.seats = h.seats) (hlevel : h'.level = h.level) : h.SameChips h' := by
  refine ⟨hlevel, by unfold HoldemHand.size; rw [hseats],
    fun j _ => ⟨(h.seatAt j).streetCommitted, ?_, le_rfl⟩⟩
  unfold seatAt
  rw [hseats]

variable (hs : h.SameChips h')
include hs

theorem trans {h'' : HoldemHand} (hs' : h'.SameChips h'') : h.SameChips h'' := by
  refine ⟨hs'.level.trans hs.level, hs'.size.trans hs.size, fun j hj => ?_⟩
  obtain ⟨s₁, e₁, hle₁⟩ := hs.seat j hj
  obtain ⟨s₂, e₂, hle₂⟩ := hs'.seat j (hs.size ▸ hj)
  rw [e₁] at hle₂
  exact ⟨s₂, by rw [e₂, e₁], hle₂.trans hle₁⟩

theorem sameRoster : h.SameRoster h' := by
  refine ⟨hs.size, fun j hj => ?_, fun j hj => ?_⟩ <;> obtain ⟨_, e, -⟩ := hs.seat j hj
  · unfold HoldemHand.idAt
    rw [e]
  · rw [e]

theorem status_eq {j : Nat} (hj : j < h.size) : (h'.seatAt j).status = (h.seatAt j).status := by
  obtain ⟨_, hseat, -⟩ := hs.seat j hj
  rw [hseat]

theorem contenderSeats_eq : h'.contenderSeats = h.contenderSeats := by
  ext j
  simp only [mem_contenderSeats, hs.size]
  exact and_congr_right fun hj => by rw [hs.status_eq hj]

end HoldemHand.SameChips

theorem sameChips_openStreet (h : HoldemHand) : h.SameChips h.openStreet :=
  ⟨rfl, size_openStreet h, fun _ hj => ⟨Chips.zero, seatAt_openStreet hj, Nat.zero_le _⟩⟩

/-! ## Advancing the street -/

/-- Where `advance_street` leads: to the first later street on which two players
can act, opened afresh, or to the showdown. -/
inductive Advances (h : HoldemHand) : HoldemHand → Prop
  | opened {street : Street} : street.IsBetting → street.left < h.street.left →
      2 ≤ ({ h with street := street } : HoldemHand).openStreet.pending.card →
      Advances h ({ h with street := street } : HoldemHand).openStreet
  | shown : Advances h { h with street := .showdown, nextToAct := none }
  | skipped : Advances h
      { ({ h with street := .river } : HoldemHand).openStreet with
        pending := ∅, street := .showdown, nextToAct := none }

theorem Advances.sameChips (hadv : Advances h h') : h.SameChips h' := by
  have hopen : ∀ street, h.SameChips ({ h with street := street } : HoldemHand).openStreet :=
    fun street => (SameChips.of_eq rfl rfl : h.SameChips { h with street := street }).trans
      (sameChips_openStreet _)
  cases hadv with
  | opened _ _ _ => exact hopen _
  | shown => exact .of_eq rfl rfl
  | skipped => exact (hopen .river).trans (.of_eq rfl rfl)

/-- A street that nobody played leaves no trace in the one opened after it. -/
theorem openStreet_skipped (h : HoldemHand) (s t : Street) :
    ({ ({ h with street := s } : HoldemHand).openStreet with
        pending := ∅, street := t } : HoldemHand).openStreet =
      ({ h with street := t } : HoldemHand).openStreet := by
  simp only [openStreet, resetPendingForStreet, actionablePlayers, List.map_map, List.filter_map,
    Function.comp_def, List.length_map]
  rfl

theorem Street.next?_cases {street next : Street} (h : street.next? = some next) :
    next = .flop ∨ next = .turn ∨ next = .river ∨ next = .showdown := by
  cases street <;> cases h <;> simp

/-- From a betting street `advance_street` succeeds. -/
theorem advanceStreetWithin_run : ∀ (n : Nat) (h : HoldemHand), h.street.IsBetting →
    h.street.left ≤ n → ∃ out h', (advanceStreetWithin n).run h = .ok out h' ∧ Advances h h' ∧
      ∀ settlement, out ≠ .handComplete settlement := by
  intro n
  induction n with
  | zero =>
    intro h hb hle
    cases hs : h.street <;> simp_all [IsBetting, left, next?]
  | succ n ih =>
    intro h hb hle
    obtain ⟨s, hs⟩ := Option.isSome_iff_exists.mp hb
    have hleft := left_next? hs
    rw [advanceStreetWithin, advanceStreetStep]
    simp only [run_bind, run_get, hs, run_orThrow_some, run_modify]
    by_cases hshow : s = .showdown
    · simp only [hshow, if_true, run_bind, run_modify, run_pure]
      exact ⟨_, _, rfl, .shown, by simp⟩
    simp only [hshow, if_false, run_bind, run_modify, run_get]
    have hbet : s.IsBetting := by
      rcases next?_cases hs with rfl | rfl | rfl | rfl
      · decide
      · decide
      · decide
      · exact absurd rfl hshow
    split
    · -- fewer than two players can act, and the next street follows
      simp only [run_bind, run_modify]
      obtain ⟨out, h', hrun, hadv, hopen⟩ :=
        ih { ({ h with street := s } : HoldemHand).openStreet with pending := ∅ } hbet
          (by change s.left ≤ n; omega)
      refine ⟨out, h', hrun, ?_, hopen⟩
      cases hadv with
      | @opened later hstreet hlater htwo =>
        rw [openStreet_skipped] at htwo ⊢
        have hlater : later.left < s.left := hlater
        exact .opened hstreet (by omega) htwo
      | shown => exact .skipped
      | skipped =>
        rw [openStreet_skipped]
        exact .skipped
    · rename_i hcard
      exact ⟨_, _, rfl, .opened hbet (by omega) (by omega), by simp⟩

theorem advanceStreet_run (hb : h.street.IsBetting) :
    ∃ out h', advanceStreet.run h = .ok out h' ∧ Advances h h' ∧
      ∀ settlement, out ≠ .handComplete settlement :=
  advanceStreetWithin_run 5 h hb (by cases h.street <;> decide)

/-- A finished betting phase has no street to advance to. -/
theorem advanceStreet_of_not_betting (hb : ¬h.street.IsBetting) :
    advanceStreet.run h = .error .stateInvariant h := by
  have hnone : h.street.next? = none := by simpa [IsBetting] using hb
  rw [advanceStreet_eq, advanceStreetStep]
  simp only [run_bind, run_get, hnone, run_orThrow_none]

/-! ## After an action -/

theorem remainingContenders_of_singleton {w : Nat} (hw : h.contenderSeats = {w}) :
    h.remainingContenders = [h.idAt w] := by
  have hlen : h.remainingContenders.length = 1 := by
    rw [length_remainingContenders, hw, Finset.card_singleton]
  obtain ⟨q, hq⟩ := List.length_eq_one_iff.mp hlen
  have hmem : h.idAt w ∈ h.remainingContenders :=
    mem_remainingContenders.mpr ⟨w, by simp [hw], rfl⟩
  rw [hq, List.mem_singleton] at hmem
  rw [hq, hmem]

/-- `resolveTurn` with one contender left. -/
theorem resolveTurn_of_singleton {w : Nat} (hw : h.contenderSeats = {w}) :
    (resolveTurn i).run h =
      (do let settlement ← finishUncontested (h.idAt w)
          pure (.handComplete settlement) : HandM ActionOutcome).run h := by
  unfold resolveTurn
  rw [run_bind, run_get]
  simp only [remainingContenders_of_singleton hw]

/-- `resolveTurn` with several contenders, or none. -/
theorem resolveTurn_of_card_ne_one (hc : h.contenderSeats.card ≠ 1) :
    (resolveTurn i).run h =
      if h.pending = ∅ then advanceStreet.run h
      else match h.nextPendingFrom ((i + 1) % h.size) with
        | some j => .ok (.waitingFor (h.idAt j)) { h with nextToAct := some j }
        | none => .error .stateInvariant { h with nextToAct := none } := by
  unfold resolveTurn
  rw [run_bind, run_get]
  have hne : ∀ q, h.remainingContenders ≠ [q] := fun q hq => hc (by
    rw [← length_remainingContenders, hq, List.length_singleton])
  dsimp only
  split
  · rename_i q hq
    exact absurd hq (hne q)
  · split
    · rfl
    · simp only [run_bind, run_modify, run_get]
      rcases h.nextPendingFrom ((i + 1) % h.size) with _ | j
      · simp [nextPlayer]
      · simp [nextPlayer, idAt, seatAt]

theorem act_of_next_eq_none (hn : h.nextToAct = none) :
    (act p a).run h = .error .noActionExpected h := by
  simp [act, hn]

/-- `act` with a player on turn. -/
theorem act_run_of_next (hnext : h.nextToAct = some i) (p : PlayerId) (a : PlayerAction) :
    (act p a).run h = if h.idAt i = p then (applyAction i p a >>= fun _ => resolveTurn i).run h
      else .error .outOfTurn h := by
  unfold act idAt
  rw [run_bind, run_get]
  dsimp only
  rw [hnext, run_bind, run_orThrow_some]
  dsimp only
  by_cases hp : (h.seatAt i).playerId = p
  · rw [if_neg (not_not.mpr hp), if_pos hp]
  · rw [if_pos hp, if_neg hp]
    rfl

/-- Inversion of a successful `act`: the seat on turn acts, and its turn is resolved. -/
theorem act_eq_ok (hnext : h.nextToAct = some i) (hrun : (act p a).run h = .ok out h') :
    h.idAt i = p ∧ ∃ h₁, ActionEffect h i a h₁ ∧ (resolveTurn i).run h₁ = .ok out h' := by
  rw [act_run_of_next hnext] at hrun
  split at hrun
  · rename_i hid
    subst hid
    obtain ⟨_, h₁, happly, hresolve⟩ := run_bind_eq_ok_iff.mp hrun
    exact ⟨rfl, h₁, applyAction_eq_ok happly, hresolve⟩
  · cases hrun

end TokenHoldem
