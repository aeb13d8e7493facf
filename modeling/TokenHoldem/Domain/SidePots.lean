import TokenHoldem.Domain.Progress

/-!
# Side pots

What a successful showdown pays to whom, in closed form. `layersAward` follows
the loop of `settle_showdown` over the distinct commitments; the results here say
what its sums come to, whatever the commitments, folds and ties are.

* `layersAward_of_best` — a contender with the strictly best rank wins
  `∑ j, min (c w) (c j)`;
* `layersAward_of_beaten` — a contender who is beaten by one with at least the
  same commitment wins nothing;
* `Reach.exists_eligible` — at a level that `StakeLevel::new` built every layer
  that is paid has a contender, so no layer is ever returned to a folded seat;
* `side_pots_exact` — all of it for a showdown.
-/

namespace TokenHoldem

open Library HoldemHand Finset LayeredPot

variable {h h' : HoldemHand} {i w : Nat} {ranks : PlayerId → HandRank}

/-! ## The strictly best contender -/

/-- The rank of `w` beats that of every other contender. -/
def HoldemHand.StrictlyBest (h : HoldemHand) (ranks : PlayerId → HandRank) (w : Nat) : Prop :=
  ∀ v ∈ h.contenderSeats, v ≠ w → ranks (h.idAt v) < ranks (h.idAt w)

variable {t lo : Nat}

theorem bestSeats_of_best (hw : w ∈ h.contenderSeats) (hbest : h.StrictlyBest ranks w)
    (hreach : t ≤ h.committed w) : h.bestSeats ranks t = [w] := by
  have hmem : w ∈ h.eligibleSeats t := mem_eligibleSeats.mpr ⟨hw, hreach⟩
  have hself : w ∈ h.bestSeats ranks t := by
    refine List.mem_filter.mpr ⟨hmem, decide_eq_true fun v hv => ?_⟩
    by_cases hvw : v = w
    · rw [hvw]
    · exact (hbest v (mem_eligibleSeats.mp hv).1 hvw).le
  have honly : ∀ v ∈ h.bestSeats ranks t, v = w := by
    intro v hv
    by_contra hvw
    obtain ⟨hv, hle⟩ := List.mem_filter.mp hv
    exact absurd (of_decide_eq_true hle w hmem) (hbest v (mem_eligibleSeats.mp hv).1 hvw).not_ge
  have hnodup : (h.bestSeats ranks t).Nodup := (nodup_eligibleSeats h t).filter _
  rw [List.eq_replicate_of_mem honly] at hnodup hself ⊢
  have hlen := List.nodup_replicate.mp hnodup
  have hpos : (h.bestSeats ranks t).length ≠ 0 := by
    intro hzero
    rw [hzero] at hself
    cases hself
  rw [show (h.bestSeats ranks t).length = 1 by omega]
  rfl

theorem layerAward_of_best (hw : w ∈ h.contenderSeats) (hbest : h.StrictlyBest ranks w)
    (hreach : t ≤ h.committed w) : h.layerAward ranks lo t w = h.layerPot lo t := by
  have hne : h.eligibleSeats t ≠ [] :=
    List.ne_nil_of_mem (mem_eligibleSeats.mpr ⟨hw, hreach⟩)
  rw [layerAward, if_neg hne, bestSeats_of_best hw hbest hreach]
  simp [share, oddSeats, Nat.mod_one]

theorem layerAward_of_not_reaching (hi : i < h.size) (hnot : ¬t ≤ h.committed i) :
    h.layerAward ranks lo t i = 0 := by
  by_cases hnil : h.eligibleSeats t = []
  · simp [layerAward, hnil, hnot]
  · exact (layerAward_splitPays ranks lo hnil).support i hi fun hw => hnot (bestSeats_sub hw).2

/-- The strictly best contender takes every layer it reaches. -/
theorem layersAward_of_best (hw : w ∈ h.contenderSeats) (hbest : h.StrictlyBest ranks w)
    {ts : List Chips} (hl : Layers h lo ts) :
    potBelow (range h.size) h.committed (min (h.committed w) lo) +
        h.layersAward ranks lo (ts.map (·.value)) w =
      potBelow (range h.size) h.committed (h.committed w) := by
  have hlt : w < h.size := (mem_contenderSeats.mp hw).1
  induction ts generalizing lo with
  | nil =>
    have hle : h.committed w ≤ lo := by simpa using hl.cover w (mem_range.mpr hlt)
    rw [min_eq_left hle]
    rfl
  | cons t ts ih =>
    have hlayer : potBelow (range h.size) h.committed lo +
        (t.value - lo) * (h.reaching t.value).card = potBelow (range h.size) h.committed t.value :=
      potBelow_add_layer (hl.above t List.mem_cons_self).le hl.gap
    have hrest := ih hl.tail
    have habove := hl.above t List.mem_cons_self
    rw [List.map_cons, layersAward]
    rcases hl.gap w (mem_range.mpr hlt) with hle | hge
    · -- the commitment ends below this layer
      rw [layerAward_of_not_reaching hlt (by omega), Nat.zero_add, min_eq_left hle]
      rwa [min_eq_left (hle.trans habove.le)] at hrest
    · rw [layerAward_of_best hw hbest hge, min_eq_right (habove.le.trans hge), layerPot]
      rw [min_eq_right hge] at hrest
      omega

/-! ## A beaten contender -/

theorem layerAward_of_beaten {v : Nat} (hw : w ∈ h.contenderSeats) (hv : v ∈ h.contenderSeats)
    (hrank : ranks (h.idAt w) < ranks (h.idAt v)) (hle : h.committed w ≤ h.committed v) :
    h.layerAward ranks lo t w = 0 := by
  have hlt : w < h.size := (mem_contenderSeats.mp hw).1
  by_cases hreach : t ≤ h.committed w
  · have helig : v ∈ h.eligibleSeats t := mem_eligibleSeats.mpr ⟨hv, hreach.trans hle⟩
    refine (layerAward_splitPays ranks lo (List.ne_nil_of_mem helig)).support w hlt fun hbest => ?_
    have hall := of_decide_eq_true (List.mem_filter.mp hbest).2
    exact absurd (hall v helig) hrank.not_ge
  · exact layerAward_of_not_reaching hlt hreach

theorem layersAward_of_beaten {v : Nat} (hw : w ∈ h.contenderSeats) (hv : v ∈ h.contenderSeats)
    (hrank : ranks (h.idAt w) < ranks (h.idAt v)) (hle : h.committed w ≤ h.committed v)
    (lo : Nat) (ts : List Nat) : h.layersAward ranks lo ts w = 0 := by
  induction ts generalizing lo with
  | nil => rfl
  | cons t ts ih => rw [layersAward, layerAward_of_beaten hw hv hrank hle, ih]

/-! ## The layers of a hand -/

/-- The layers of a pot: each from one commitment to the next larger one. -/
def HoldemHand.layers (h : HoldemHand) : List (Nat × Nat) :=
  (0 :: h.thresholds.map (·.value)).zip (h.thresholds.map (·.value))

theorem layersAward_eq_sum (lo : Nat) (ts : List Nat) (j : Nat) : h.layersAward ranks lo ts j =
      (((lo :: ts).zip ts).map fun layer => h.layerAward ranks layer.1 layer.2 j).sum := by
  induction ts generalizing lo with
  | nil => rfl
  | cons t ts ih => rw [layersAward, ih, List.zip_cons_cons, List.map_cons, List.sum_cons]

theorem exists_threshold_of_mem_layers {layer : Nat × Nat} (hmem : layer ∈ h.layers) :
    ∃ t ∈ h.thresholds, t.value = layer.2 :=
  List.mem_map.mp (List.of_mem_zip hmem).2

/-- What a successful showdown has paid, starting from any hand. -/
theorem credits_of_settleShowdown {board : Board} {holeCards : HoleCards}
    {settlement : HoldemSettlement} (hd : h.DistinctIds)
    (hrun : (settleShowdown board holeCards).run h = .ok settlement h') :
    ∃ h₁, h.Credits (h.layersAward (rankOf board holeCards) 0 (h.thresholds.map (·.value))) h₁ ∧
      h' = { h₁ with street := .complete } ∧ ∀ t ∈ h.thresholds, ¬h.Orphan t.value := by
  obtain ⟨_, h₂, hpay, hbuild⟩ := run_bind_eq_ok_iff.mp hrun
  obtain ⟨hstreet, hcards⟩ := showsCards_of_ok hpay
  obtain ⟨rfl, -, -⟩ := totalDelta_of_buildSettlement hbuild
  rw [payShowdown_eq hstreet hcards] at hpay
  obtain ⟨_, h₁, hlayers, hend⟩ := run_bind_eq_ok_iff.mp hpay
  cases hend
  rcases settleLayers_run _ (rankOf board holeCards) h.thresholds Chips.zero h hd rfl
      (layers_thresholds h) with ⟨h₃, hok, hc, hno⟩ | ⟨h₃, herr, -⟩ | ⟨h₃, herr, -⟩
  · rw [hok] at hlayers
    cases hlayers
    exact ⟨h₁, hc, rfl, hno⟩
  · rw [herr] at hlayers
    cases hlayers
  · rw [herr] at hlayers
    cases hlayers

/-! ## Every paid layer has a contender

A layer without a contender is returned if one seat alone has reached it. At a
built level that never happens: whoever folds has been asked to answer a bet that
somebody else has made, so no folded seat is alone at the top. -/

/-- Another seat has committed at least as much. -/
def HoldemHand.Matched (h : HoldemHand) (i : Nat) : Prop :=
  ∃ j < h.size, j ≠ i ∧ h.committed i ≤ h.committed j

/-- No folded seat is alone at the top, and every contender has paid the big blind
once the first street is over. -/
structure HoldemHand.TopMatched (bigBlind : Nat) (h : HoldemHand) : Prop where
  buyIn : ∀ j < h.size, bigBlind ≤ (h.seatAt j).startingStack.value
  folded : ∀ j < h.size, (h.seatAt j).status = .folded → bigBlind < h.committed j → h.Matched j
  reached : h.street ≠ .preflop → ∀ j ∈ h.contenderSeats, bigBlind ≤ h.committed j

/-- The same for the players who may still fold. Active seats have paid the same on
the streets before. -/
structure HoldemHand.BetMatched (bigBlind : Nat) (h : HoldemHand) : Prop
    extends h.TopMatched bigBlind where
  prior : ∀ i < h.size, ∀ j < h.size, (h.seatAt i).status = .active →
    (h.seatAt j).status = .active →
    h.committed i + (h.seatAt j).streetCommitted.value =
      h.committed j + (h.seatAt i).streetCommitted.value
  pending : ∀ j < h.size, h.idAt j ∈ h.pending → bigBlind < h.committed j → h.Matched j
  opening : h.street = .preflop → bigBlind ≤ h.currentBet.value

variable {a : PlayerAction} {h₁ : HoldemHand} {bigBlind : Nat}

theorem HoldemHand.Acted.committed_mono (ha : h.Acted i h₁) (j : Nat) :
    h.committed j ≤ h₁.committed j := by
  unfold committed
  by_cases hji : j = i
  · rw [hji]
    exact ha.actor.committed
  · rw [ha.others j hji]

theorem HoldemHand.Acted.committed_of_ne (ha : h.Acted i h₁) {j : Nat} (hji : j ≠ i) :
    h₁.committed j = h.committed j := by
  unfold committed
  rw [ha.others j hji]

theorem HoldemHand.Matched.of_acted (hm : h.Matched w) (ha : h.Acted i h₁)
    (hsame : h₁.committed w = h.committed w) : h₁.Matched w := by
  obtain ⟨j, hj, hjw, hle⟩ := hm
  exact ⟨j, ha.size.symm ▸ hj, hjw, hsame.le.trans (hle.trans (ha.committed_mono j))⟩

/-- An action ends the actor's turn, or it is a raise that the actor has paid. -/
theorem ActionEffect.pending_cases (he : ActionEffect h i a h₁) (hi : i < h.size) :
    h₁.pending = h.pending.erase (h.idAt i) ∨ ∃ target : Chips, h.currentBet.value < target.value ∧
      (h.seatAt i).Pays (target.value - (h.seatAt i).streetCommitted.value) (h₁.seatAt i) ∧
      (h₁.seatAt i).streetCommitted = target := by
  have hraised : ∀ {s' : SeatState} {target : Chips} {h' : HoldemHand}, h'.seatAt i = s' →
      h.currentBet.value < target.value →
      (h.seatAt i).Pays (target.value - (h.seatAt i).streetCommitted.value) s' →
      s'.streetCommitted = target → ∃ target : Chips, h.currentBet.value < target.value ∧
        (h.seatAt i).Pays (target.value - (h.seatAt i).streetCommitted.value) (h'.seatAt i) ∧
        (h'.seatAt i).streetCommitted = target := by
    rintro s' target h' rfl above pays reaches
    exact ⟨target, above, pays, reaches⟩
  cases he with
  | fold => exact .inl rfl
  | check _ => exact .inl rfl
  | call _ _ => exact .inl rfl
  | raiseFull _ above pays reaches _ =>
    exact .inr (hraised (seatAt_updateSeat_self hi) above pays reaches)
  | raiseShort _ above pays reaches _ =>
    exact .inr (hraised (seatAt_updateSeat_self hi) above pays reaches)

/-- What the actor pays counts for the street and for the hand. -/
theorem ActionEffect.actor_paid (he : ActionEffect h i a h₁) (hi : i < h.size) :
    ∃ n, h₁.committed i = h.committed i + n ∧
      (h₁.seatAt i).streetCommitted.value = (h.seatAt i).streetCommitted.value + n := by
  unfold committed
  rcases he.actor_cases hi with ⟨-, hseat⟩ | ⟨-, hseat⟩ | ⟨-, n, pays⟩
  · exact ⟨0, by rw [hseat]; rfl, by rw [hseat]; rfl⟩
  · exact ⟨0, by rw [hseat]; rfl, by rw [hseat]; rfl⟩
  · exact ⟨n, pays.totalCommitted, pays.streetCommitted⟩

theorem ActionEffect.currentBet_le (he : ActionEffect h i a h₁) :
    h.currentBet.value ≤ h₁.currentBet.value := by
  cases he with
  | fold => exact le_rfl
  | check _ => exact le_rfl
  | call _ _ => exact le_rfl
  | raiseFull _ above _ _ _ => exact above.le
  | raiseShort _ above _ _ _ => exact above.le

/-- A raise puts the raiser at least level with every other active seat. -/
theorem HoldemHand.BetMatched.raiser_top (hm : h.BetMatched bigBlind) (ht : h.Turns)
    (hi : i < h.size) (hactive : (h.seatAt i).status = .active) (ha : h.Acted i h₁) {j : Nat}
    (hj : j < h.size) (hji : j ≠ i) (hjactive : (h.seatAt j).status = .active) {target : Chips}
    (above : h.currentBet.value < target.value)
    (pays : (h.seatAt i).Pays (target.value - (h.seatAt i).streetCommitted.value) (h₁.seatAt i))
    (reaches : (h₁.seatAt i).streetCommitted = target) : h₁.Matched j := by
  refine ⟨i, ha.size.symm ▸ hi, hji.symm, ?_⟩
  have hprior := hm.prior i hi j hj hactive hjactive
  have hbet := ht.bet_le j hj
  have hstreet := pays.streetCommitted
  have hcommitted : h₁.committed i = h.committed i +
      (target.value - (h.seatAt i).streetCommitted.value) := pays.totalCommitted
  rw [ha.committed_of_ne hji, hcommitted]
  rw [reaches] at hstreet
  omega

/-- One action of a betting round. -/
theorem HoldemHand.BetMatched.of_effect (hm : h.BetMatched bigBlind) (hb : h.Betting)
    (hi : i < h.size) (hp : h.idAt i ∈ h.pending) (he : ActionEffect h i a h₁) :
    h₁.BetMatched bigBlind := by
  have ha := he.acted hi
  have ht := hb.toTurns
  have hactive := ht.toInTurn.active hi hp
  have hwas : ∀ j, (h₁.seatAt j).status = .active → (h.seatAt j).status = .active := by
    intro j hj
    by_cases hji : j = i
    · rw [hji]
      exact hactive
    · rwa [ha.others j hji] at hj
  have hpaid : ∀ j, ∃ n, h₁.committed j = h.committed j + n ∧
      (h₁.seatAt j).streetCommitted.value = (h.seatAt j).streetCommitted.value + n := by
    intro j
    by_cases hji : j = i
    · rw [hji]
      exact he.actor_paid hi
    · exact ⟨0, ha.committed_of_ne hji, by rw [ha.others j hji]; rfl⟩
  refine ⟨⟨?_, ?_, ?_⟩, ?_, ?_, ?_⟩
  · intro j hj
    rw [ha.size] at hj
    rw [ha.sameRoster.startingStack j hj]
    exact hm.buyIn j hj
  · intro j hj hfolded hlt
    rw [ha.size] at hj
    by_cases hji : j = i
    · -- the player who has just folded was asked to answer somebody else's bet
      subst hji
      obtain rfl := (he.actor_status hi hactive).mp hfolded
      have hsame := he.fold_committed hi j
      exact (hm.pending j hi hp (hsame ▸ hlt)).of_acted ha hsame
    · rw [ha.others j hji] at hfolded
      have hsame := ha.committed_of_ne hji
      exact (hm.folded j hj hfolded (hsame ▸ hlt)).of_acted ha hsame
  · intro hstreet j hj
    rw [ha.street] at hstreet
    have hmem : j ∈ h.contenderSeats := by
      rw [he.contenderSeats hi hactive] at hj
      split at hj
      · exact Finset.mem_of_mem_erase hj
      · exact hj
    exact (hm.reached hstreet j hmem).trans (ha.committed_mono j)
  · intro j hj k hk hjactive hkactive
    rw [ha.size] at hj hk
    have hprior := hm.prior j hj k hk (hwas j hjactive) (hwas k hkactive)
    obtain ⟨n, hn, hn'⟩ := hpaid j
    obtain ⟨m, hm, hm'⟩ := hpaid k
    omega
  · intro j hj hjp hlt
    rw [ha.size] at hj
    rw [ha.idAt] at hjp
    obtain ⟨hne, k, hk, hid, hkactive⟩ :=
      he.pending_active hi ht.distinct ht.pending_active _ hjp
    obtain rfl : k = j := ht.distinct k hk j hj hid
    have hji : k ≠ i := fun hji => hne (by rw [hji])
    rcases he.pending_cases hi with hpending | ⟨target, above, pays, reaches⟩
    · rw [hpending] at hjp
      have hsame := ha.committed_of_ne hji
      exact (hm.pending k hk (Finset.mem_of_mem_erase hjp) (hsame ▸ hlt)).of_acted ha hsame
    · -- whoever is asked again stays behind the raiser
      exact hm.raiser_top ht hi hactive ha hk hji hkactive above pays reaches
  · intro hstreet
    rw [ha.street] at hstreet
    exact (hm.opening hstreet).trans he.currentBet_le

section SameChips

variable (hs : h.SameChips h')
include hs

theorem HoldemHand.SameChips.committed_eq {j : Nat} (hj : j < h.size) :
    h'.committed j = h.committed j := by
  obtain ⟨_, hseat, -⟩ := hs.seat j hj
  unfold committed
  rw [hseat]

theorem HoldemHand.Matched.of_sameChips (hw : w < h.size) (hm : h.Matched w) : h'.Matched w := by
  obtain ⟨j, hj, hjw, hle⟩ := hm
  refine ⟨j, hs.size.symm ▸ hj, hjw, ?_⟩
  rw [hs.committed_eq hj, hs.committed_eq hw]
  exact hle

/-- The end of a street, once every contender has paid the big blind. -/
theorem HoldemHand.TopMatched.of_sameChips (hm : h.TopMatched bigBlind)
    (hall : ∀ j ∈ h.contenderSeats, bigBlind ≤ h.committed j) : h'.TopMatched bigBlind where
  buyIn := by
    intro j hj
    rw [hs.size] at hj
    rw [hs.sameRoster.startingStack j hj]
    exact hm.buyIn j hj
  folded := by
    intro j hj hfolded hlt
    rw [hs.size] at hj
    rw [hs.status_eq hj] at hfolded
    rw [hs.committed_eq hj] at hlt
    exact (hm.folded j hj hfolded hlt).of_sameChips hs hj
  reached := by
    intro _ j hj
    have hlt := (mem_contenderSeats.mp hj).1
    rw [hs.size] at hlt
    rw [hs.committed_eq hlt]
    refine hall j (mem_contenderSeats.mpr ⟨hlt, ?_⟩)
    rw [← hs.status_eq hlt]
    exact (mem_contenderSeats.mp hj).2

end SameChips

/-- When a street ends, every contender has matched the bet or is all-in. -/
theorem HoldemHand.BetMatched.reached_of_closed (hm : h.BetMatched bigBlind) (ht : h.Turns)
    (hin : h.InPlay) (hclosed : h.pending = ∅) :
    ∀ j ∈ h.contenderSeats, bigBlind ≤ h.committed j := by
  intro j hj
  by_cases hstreet : h.street = .preflop
  · obtain ⟨hlt, hleft⟩ := mem_contenderSeats.mp hj
    have hfunded := hin.funded j hlt
    cases hstatus : (h.seatAt j).status with
    | active =>
      have hmatched := ht.matched j hlt hstatus (by simp [hclosed])
      have := hm.opening hstreet
      have hle := hfunded.street_le
      rw [hmatched] at hle
      exact this.trans hle
    | folded => exact absurd hstatus hleft
    | allIn =>
      have hzero := congrArg Chips.value ((hin.marked j hlt).allIn hstatus)
      have := hm.buyIn j hlt
      have := hfunded.chips
      rw [Chips.zero_value] at hzero
      unfold committed
      omega
  · exact hm.reached hstreet j hj

/-- Seats that have matched the bet of a street have committed the same. -/
theorem HoldemHand.BetMatched.eq_of_closed (hm : h.BetMatched bigBlind) (ht : h.Turns)
    (hclosed : h.pending = ∅) {j k : Nat} (hj : j < h.size) (hk : k < h.size)
    (hjactive : (h.seatAt j).status = .active) (hkactive : (h.seatAt k).status = .active) :
    h.committed j = h.committed k := by
  have hprior := hm.prior j hj k hk hjactive hkactive
  rw [ht.matched j hj hjactive (by simp [hclosed]), ht.matched k hk hkactive (by simp [hclosed])]
    at hprior
  omega

theorem Street.left_le_preflop (s : Street) : s.left ≤ Street.preflop.left := by
  cases s <;> decide

/-- A new street: the seats that can act have committed the same, and there are
at least two of them. -/
theorem HoldemHand.BetMatched.of_opened (hm : h.BetMatched bigBlind) (ht : h.Turns)
    (hin : h.InPlay) (hclosed : h.pending = ∅) (hs : h.SameChips h')
    (hzero : ∀ j < h.size, (h'.seatAt j).streetCommitted = Chips.zero)
    (hpending : h'.pending = h'.actionablePlayers none) (hlater : h'.street ≠ .preflop)
    (htwo : 2 ≤ h'.pending.card) : h'.BetMatched bigBlind := by
  have heq : ∀ j < h.size, ∀ k < h.size, (h'.seatAt j).status = .active →
      (h'.seatAt k).status = .active → h'.committed j = h'.committed k := by
    intro j hj k hk hjactive hkactive
    rw [hs.status_eq hj] at hjactive
    rw [hs.status_eq hk] at hkactive
    rw [hs.committed_eq hj, hs.committed_eq hk]
    exact hm.eq_of_closed ht hclosed hj hk hjactive hkactive
  refine ⟨hm.toTopMatched.of_sameChips hs (hm.reached_of_closed ht hin hclosed), ?_, ?_, ?_⟩
  · intro j hj k hk hjactive hkactive
    rw [hs.size] at hj hk
    rw [hzero j hj, hzero k hk, heq j hj k hk hjactive hkactive]
  · intro j hj hjp _
    have hcan : ∀ q ∈ h'.pending, ∃ k < h'.size, h'.idAt k = q ∧
        (h'.seatAt k).status = .active := by
      intro q hq
      rw [hpending] at hq
      obtain ⟨k, hk, hid, hactive, -⟩ := mem_actionablePlayers.mp hq
      exact ⟨k, hk, hid, hactive⟩
    -- another of the players who can act
    obtain ⟨q, hq, hne⟩ := Finset.exists_mem_ne htwo (h'.idAt j)
    obtain ⟨k, hk, rfl, hkactive⟩ := hcan q hq
    obtain ⟨j', hj', hid, hjactive⟩ := hcan _ hjp
    rw [hs.size] at hj hj' hk
    rw [hs.sameRoster.idAt j' hj', hs.sameRoster.idAt j hj] at hid
    obtain rfl : j' = j := ht.distinct j' hj' j hj hid
    exact ⟨k, hs.size.symm ▸ hk, fun hkj => hne (by rw [hkj]),
      (heq j' hj' k hk hjactive hkactive).le⟩
  · exact fun hstreet => absurd hstreet hlater

/-- The street that follows, or the showdown. -/
theorem Advances.betMatched (hadv : Advances h h') (hm : h.BetMatched bigBlind) (ht : h.Turns)
    (hin : h.InPlay) (hclosed : h.pending = ∅) :
    h'.TopMatched bigBlind ∧ (h'.street.IsBetting → h'.BetMatched bigBlind) := by
  have hs := hadv.sameChips
  have htop := hm.toTopMatched.of_sameChips hs (hm.reached_of_closed ht hin hclosed)
  refine ⟨htop, fun hstreet => ?_⟩
  cases hadv with
  | @opened street _ hlater htwo =>
    refine hm.of_opened ht hin hclosed hs (fun j hj => ?_) rfl ?_ htwo
    · have hj : j < ({ h with street := street } : HoldemHand).size := hj
      rw [seatAt_openStreet hj]
    · have := h.street.left_le_preflop
      rintro hpre
      rw [show street = .preflop from hpre] at hlater
      omega
  | shown => exact absurd hstreet (by simp [Street.IsBetting, Street.next?])
  | skipped => exact absurd hstreet (by simp [Street.IsBetting, Street.next?])

variable {level : BuiltLevel} {seats : List (PlayerId × Chips)} {dealer : Nat}

/-- After the blinds nobody has committed more than the big blind. -/
theorem betMatched_of_start (hs : start level seats dealer = .ok h) :
    h.BetMatched level.bigBlind.value := by
  have ho := start_opened hs
  have hb := betting_of_start hs
  have hbet : ∀ j < h.size, h.committed j ≤ level.bigBlind.value := by
    intro j hj
    have hle := hb.bet_le j hj
    rw [ho.currentBet, ← ho.committed j hj] at hle
    exact hle
  refine ⟨⟨?_, ?_, ?_⟩, ?_, ?_, ?_⟩
  · intro j hj
    rw [ho.roster.size, initial_size] at hj
    rw [ho.roster.startingStack j (initial_size.symm ▸ hj), initial_seatAt hj]
    exact initial_stack_ge ho.checks hj
  · intro j hj _ hlt
    exact absurd hlt (hbet j hj).not_gt
  · intro hne
    exact absurd ho.street hne
  · intro j hj k hk _ _
    unfold committed
    rw [ho.committed j hj, ho.committed k hk]
    exact Nat.add_comm _ _
  · intro j hj _ hlt
    exact absurd hlt (hbet j hj).not_gt
  · intro _
    rw [ho.currentBet]

/-- What is known of the top of the pot before a hand is complete. -/
structure HoldemHand.PotMatched (bigBlind : Nat) (h : HoldemHand) : Prop where
  top : h.street ≠ .complete → h.TopMatched bigBlind
  bets : h.street.IsBetting → h.BetMatched bigBlind

theorem HoldemHand.PotMatched.of_complete (hs : h.street = .complete) : h.PotMatched bigBlind := by
  refine ⟨fun hne => absurd hs hne, fun hb => ?_⟩
  rw [hs] at hb
  exact absurd hb (by decide)

theorem HoldemHand.BetMatched.potMatched (hm : h.BetMatched bigBlind) : h.PotMatched bigBlind :=
  ⟨fun _ => hm.toTopMatched, fun _ => hm⟩

/-- One successful action of a betting round. -/
theorem HoldemHand.BetMatched.act_ok {p : PlayerId} {out : ActionOutcome}
    (hm : h.BetMatched bigBlind) (hb : h.Betting)
    (hresult : ActResult h p a (.ok out h')) : h'.PotMatched bigBlind := by
  have heffect : ∀ {i : Nat} {h₁ : HoldemHand}, h.nextToAct = some i →
      (applyAction i (h.idAt i) a).run h = .ok () h₁ →
      h₁.BetMatched bigBlind ∧ h₁.Turns ∧ h₁.InPlay := by
    intro i h₁ hnext happly
    have hi := hb.next_lt i hnext
    have he := applyAction_eq_ok happly
    exact ⟨hm.of_effect hb hi (hb.asked i hnext) he, he.turns hb.toTurns hi,
      hb.toInPlay.of_effect hi he⟩
  cases hresult with
  | won => exact .of_complete rfl
  | advanced hnext _ happly hclosed hadv =>
    obtain ⟨hm₁, ht₁, hb₁⟩ := heffect hnext happly
    obtain ⟨htop, hbets⟩ := hadv.betMatched hm₁ ht₁ hb₁ hclosed
    exact ⟨fun _ => htop, hbets⟩
  | passed hnext _ happly =>
    obtain ⟨hm₁, -, -⟩ := heffect hnext happly
    exact potMatched ⟨⟨hm₁.buyIn, hm₁.folded, hm₁.reached⟩, hm₁.prior, hm₁.pending, hm₁.opening⟩

theorem Reach.potMatched (hr : Reach level seats dealer h) : h.PotMatched level.bigBlind.value := by
  induction hr with
  | start hs => exact (betMatched_of_start hs).potMatched
  | @act h h' p a out hr hrun ih =>
    rcases h.street.betting_or with hs | hs | hs
    · have hresult := (hr.called.onCourse.betting hs).act_run hs p a
      rw [hrun] at hresult
      exact (ih.bets hs).act_ok (hr.betting hs) hresult
    · rw [act_of_next_eq_none (hr.called.onCourse.showdown hs)] at hrun
      cases hrun
    · have hend := act_street_complete p a hs
      unfold Ends at hend
      rw [hrun] at hend
      exact .of_complete hend
  | settle hr hrun _ =>
    obtain ⟨-, g, h₁, -, rfl, -⟩ := hr.phase.settle_ok hrun
    exact .of_complete rfl

/-- At a showdown that pays, every layer is reached by a contender. -/
theorem Reach.exists_eligible (hr : Reach level seats dealer h)
    (hs : h.street = .showdown)
    (hno : ∀ t ∈ h.thresholds, ¬h.Orphan t.value) {t : Chips} (ht : t ∈ h.thresholds) :
    h.eligibleSeats t.value ≠ [] := by
  intro hnil
  have htop := hr.potMatched.top (by rw [hs]; decide)
  have hnone : ∀ v ∈ h.contenderSeats, h.committed v < t.value := by
    intro v hv
    by_contra hge
    have : v ∈ h.eligibleSeats t.value := mem_eligibleSeats.mpr ⟨hv, by omega⟩
    rw [hnil] at this
    cases this
  -- the seat that ends the layer has folded, and has committed more than some contender
  obtain ⟨-, k, hk, hkt⟩ := mem_thresholds.mp ht
  have hkc : h.committed k = t.value := congrArg Chips.value hkt
  have hfolded : (h.seatAt k).status = .folded := by
    by_contra hin
    exact absurd (hnone k (mem_contenderSeats.mpr ⟨hk, hin⟩)) (by omega)
  have htwo : 2 ≤ h.size :=
    (level.two_le_players.trans hr.called.checks.players_ge).trans_eq hr.called.seatedAt.size.symm
  obtain ⟨v, hv⟩ : h.contenderSeats.Nonempty := card_pos.mp
    (Nat.zero_lt_two.trans_le ((hr.phase.atShowdown hs).contested.resolve_right (by omega)))
  have hreached := htop.reached (by rw [hs]; decide) v hv
  obtain ⟨j, hj, hjk, hle⟩ := htop.folded k hk hfolded (by have := hnone v hv; omega)
  -- so another seat reaches the layer too
  refine hno t ht ⟨hnone, fun hone => ?_⟩
  obtain ⟨m, hm⟩ := card_eq_one.mp hone
  have hmem : ∀ n < h.size, t.value ≤ h.committed n → n = m := fun n hn hge =>
    mem_singleton.mp (hm ▸ mem_filter.mpr ⟨mem_range.mpr hn, hge⟩)
  exact hjk ((hmem j hj (by omega)).trans (hmem k hk hkc.ge).symm)

/-! ## The showdown -/

theorem Called.distinct {level : StakeLevel} (hc : Called level seats dealer h) :
    h.DistinctIds := by
  have hnodup := hc.checks.distinct
  have hids : h.seats.map (·.playerId) = seats.map (·.1) := by
    rw [← hc.seatedAt.roster, roster, List.map_map]
    rfl
  rw [← hids] at hnodup
  intro i hi j hj hij
  rw [idAt, idAt, seatAt_eq_getElem hi, seatAt_eq_getElem hj] at hij
  have hi' : i < (h.seats.map (·.playerId)).length := by simpa using hi
  have hj' : j < (h.seats.map (·.playerId)).length := by simpa using hj
  have heq : (h.seats.map (·.playerId))[i] = (h.seats.map (·.playerId))[j] := by simpa using hij
  exact hnodup.getElem_inj_iff.mp heq

/-- What a showdown pays: `award j` is what seat `j` gets. -/
structure SidePots (h : HoldemHand) (ranks : PlayerId → HandRank) (award : Nat → Nat) : Prop where
  /-- The whole pot is paid out. -/
  sum : ∑ j ∈ range h.size, award j = ∑ j ∈ range h.size, h.committed j
  /-- A contender with the strictly best rank wins what everybody has matched of
  its own commitment. -/
  best : ∀ w ∈ h.contenderSeats, h.StrictlyBest ranks w →
    award w = ∑ j ∈ range h.size, min (h.committed w) (h.committed j)
  /-- A contender beaten by somebody with at least the same commitment wins nothing. -/
  beaten : ∀ w ∈ h.contenderSeats, ∀ v ∈ h.contenderSeats,
    ranks (h.idAt w) < ranks (h.idAt v) → h.committed w ≤ h.committed v → award w = 0
  /-- The award is made up of the layers between the distinct commitments. Each is
  shared equally by its best contenders, odd chips in seat order from the dealer's
  left; one that no contender reaches goes back to the seat that alone reaches it. -/
  layers : ∀ j < h.size,
    award j = (h.layers.map fun layer => h.layerAward ranks layer.1 layer.2 j).sum
  alone : ∀ layer ∈ h.layers, h.eligibleSeats layer.2 = [] → (h.reaching layer.2).card = 1

/-- A successful showdown pays the side pots, from whatever state it was called;
and a hand of a built level has a contender in every layer, so that nothing goes
back to a folded seat. -/
theorem side_pots_exact {level : StakeLevel} {board : Board} {holeCards : HoleCards}
    {settlement : HoldemSettlement} (hc : Called level seats dealer h)
    (hrun : (settleShowdown board holeCards).run h = .ok settlement h') :
    (∃ award, (∀ j < h.size, (h'.seatAt j).stack.value = (h.seatAt j).stack.value + award j) ∧
      SidePots h (rankOf board holeCards) award) ∧
    ∀ built : BuiltLevel, Reach built seats dealer h →
      ∀ layer ∈ h.layers, h.eligibleSeats layer.2 ≠ [] := by
  obtain ⟨h₁, hcredits, rfl, hno⟩ := credits_of_settleShowdown hc.distinct hrun
  have hpays := layersAward_pays (rankOf board holeCards) (layers_thresholds h) hno
  have hsum := hpays.sum_eq (layers_thresholds h).cover
  rw [potBelow_zero, Nat.zero_add] at hsum
  refine ⟨⟨_, hcredits.stack, hsum, fun w hw hbest => ?_, fun w hw v hv hrank hle => ?_,
    fun j _ => ?_, fun layer hlayer hnil => ?_⟩, fun built hr layer hlayer => ?_⟩
  · have htake := layersAward_of_best hw hbest (layers_thresholds h)
    rw [Nat.min_zero, potBelow_zero, Nat.zero_add] at htake
    rw [htake]
    exact sum_congr rfl fun j _ => Nat.min_comm _ _
  · exact layersAward_of_beaten hw hv hrank hle _ _
  · exact layersAward_eq_sum _ _ _
  · obtain ⟨t, ht, htv⟩ := exists_threshold_of_mem_layers hlayer
    by_contra hcard
    refine hno t ht ⟨fun v hv => ?_, htv ▸ hcard⟩
    by_contra hge
    have : v ∈ h.eligibleSeats layer.2 := mem_eligibleSeats.mpr ⟨hv, by omega⟩
    rw [hnil] at this
    cases this
  · obtain ⟨t, ht, htv⟩ := exists_threshold_of_mem_layers hlayer
    obtain ⟨_, h₂, hpay, -⟩ := run_bind_eq_ok_iff.mp hrun
    rw [← htv]
    exact hr.exists_eligible (showsCards_of_ok hpay).1 hno ht

/-- The source's side-pot test: three players all-in with different stacks. -/
theorem side_pots_three_stacks :
    ∃ h settlement h', Called oneTwoLevel threeStacks 0 h ∧
      (settleShowdown dryBoard pocketCards).run h = .ok settlement h' ∧
      (∃ award, (∀ j < h.size,
          (h'.seatAt j).stack.value = (h.seatAt j).stack.value + award j) ∧
        SidePots h (rankOf dryBoard pocketCards) award) ∧
      ∀ layer ∈ h.layers, h.eligibleSeats layer.2 ≠ [] := by
  obtain ⟨h, hr, settlement, h', hrun, -⟩ :=
    exists_reach_of_play oneTwoLevel threeStacks 0
    [(player 1, .raiseTo (chips 40)), (player 2, .call), (player 3, .raiseTo (chips 100)),
      (player 2, .call)]
    (fun h => ∃ settlement h', (settleShowdown dryBoard pocketCards).run h =
      .ok settlement h' ∧ True) (by decide +kernel)
  have hpots := side_pots_exact hr.called hrun
  exact ⟨h, settlement, h', hr.called, hrun, hpots.1, hpots.2 oneTwoLevel hr⟩

end TokenHoldem
