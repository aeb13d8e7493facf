import TokenHoldem.Domain.Start
import TokenHoldem.Library.LayeredPot

/-!
# Showdown

`settle_showdown` cuts the pot into layers at the distinct commitments and pays
each layer to the best contenders that reach it. A layer that no contender
reaches is returned when one seat alone contributed to it; otherwise the loop
gives up with `StateInvariant`, after the lower layers have been paid.

* `layerAward`, `layersAward` — what a seat is paid of one layer, and of all.
* `settleLayer_run`, `settleLayers_run` — one layer and the whole loop: paid, an
  overflow, or a layer without an owner.
* `layersAward_pays` — the payments are those of a `LayeredPot`.
* `payShowdown_run` — a showdown with valid cards.
* `exists_orphan_iff` — a layer without an owner exists exactly when two seats
  committed more than every contender.
-/

namespace TokenHoldem

open Library HoldemHand Finset EStateM

variable {h h' : HoldemHand} {i : Nat}

namespace HoldemHand

/-- What the seat at an index has put into the pot. -/
def committed (h : HoldemHand) (j : Nat) : Nat := (h.seatAt j).totalCommitted.value

/-- The seats that reach a layer. -/
abbrev reaching (h : HoldemHand) (t : Nat) : Finset Nat :=
  LayeredPot.reaching (range h.size) h.committed t

/-- A layer that nobody can be paid: no contender reaches it, and its
contributors are not a single seat. -/
def Orphan (h : HoldemHand) (t : Nat) : Prop :=
  (∀ w ∈ h.contenderSeats, h.committed w < t) ∧ (h.reaching t).card ≠ 1

end HoldemHand

/-! ## Reading a layer -/

theorem contributorsAt_eq (h : HoldemHand) (t : Nat) :
    h.contributorsAt t = ((List.range h.size).filter fun i => t ≤ h.committed i).map h.seatAt := by
  unfold contributorsAt
  conv_lhs => rw [seats_eq_map h]
  rw [List.filter_map]
  rfl

theorem length_contributorsAt (t : Nat) : (h.contributorsAt t).length = (h.reaching t).card := by
  rw [contributorsAt_eq, List.length_map]
  rfl

variable {t : Nat} {ranks : PlayerId → HandRank} {ts : List Chips} {g : Nat → Nat} {board : Board}
  {holeCards : HoleCards}

/-- A layer with one contributor. -/
theorem contributorsAt_of_card_eq_one (hone : (h.reaching t).card = 1) :
    ∃ k < h.size, t ≤ h.committed k ∧ h.contributorsAt t = [h.seatAt k] := by
  obtain ⟨k, hk⟩ := List.length_eq_one_iff.mp
    (show ((List.range h.size).filter fun i => t ≤ h.committed i).length = 1 from hone)
  have hmem : k ∈ (List.range h.size).filter fun i => t ≤ h.committed i := by simp [hk]
  simp only [List.mem_filter, List.mem_range, decide_eq_true_eq] at hmem
  exact ⟨k, hmem.1, hmem.2, by rw [contributorsAt_eq, hk, List.map_singleton]⟩

/-- The indices of the contenders that reach a layer. -/
def HoldemHand.eligibleSeats (h : HoldemHand) (t : Nat) : List Nat :=
  (List.range h.size).filter fun i => (h.seatAt i).status ≠ .folded ∧ t ≤ h.committed i

theorem mem_eligibleSeats : i ∈ h.eligibleSeats t ↔ i ∈ h.contenderSeats ∧ t ≤ h.committed i := by
  simp [eligibleSeats, and_assoc]

theorem eligibleAt_eq (hd : h.DistinctIds) (t : Nat) :
    h.eligibleAt h.remainingContenders t = (h.eligibleSeats t).map h.idAt := by
  unfold eligibleAt eligibleSeats
  rw [remainingContenders_eq, List.filter_map, List.filter_filter]
  congr 1
  refine List.filter_congr fun i hi => ?_
  have hi : i < h.size := List.mem_range.mp hi
  rw [Bool.eq_iff_iff, decide_eq_true_iff]
  simp [hd.seat_idAt hi, committed, and_comm]

theorem bestRank_mem (ranks : PlayerId → HandRank) (first : PlayerId) (rest : List PlayerId) :
    ∃ q ∈ first :: rest, ranks q = bestRank ranks first rest := by
  unfold bestRank
  induction rest generalizing first with
  | nil => exact ⟨first, by simp, rfl⟩
  | cons q rest ih =>
    -- the running maximum is the rank of one of the two players compared
    have hmax :
        max (ranks first) (ranks q) = ranks (if ranks first ≤ ranks q then q else first) := by
      split
      · exact max_eq_right ‹_›
      · exact max_eq_left (le_of_not_ge ‹_›)
    rw [List.foldl_cons, hmax]
    obtain ⟨r, hr, hrank⟩ := ih (if ranks first ≤ ranks q then q else first)
    refine ⟨r, ?_, hrank⟩
    rcases List.mem_cons.mp hr with rfl | hr
    · split <;> simp
    · simp [hr]

theorem le_foldl_max (ranks : PlayerId → HandRank) (rest : List PlayerId) (best : HandRank) :
    best ≤ rest.foldl (fun best player => max best (ranks player)) best ∧
      ∀ q ∈ rest, ranks q ≤ rest.foldl (fun best player => max best (ranks player)) best := by
  induction rest generalizing best with
  | nil => exact ⟨le_rfl, fun _ hq => nomatch hq⟩
  | cons r rest ih =>
    obtain ⟨hbest, hrest⟩ := ih (max best (ranks r))
    refine ⟨(le_max_left _ _).trans hbest, fun q hq => ?_⟩
    rcases List.mem_cons.mp hq with rfl | hq
    · exact (le_max_right _ _).trans hbest
    · exact hrest q hq

theorem le_bestRank (ranks : PlayerId → HandRank) {first q : PlayerId} {rest : List PlayerId}
    (hq : q ∈ first :: rest) : ranks q ≤ bestRank ranks first rest := by
  rcases List.mem_cons.mp hq with rfl | hq
  · exact (le_foldl_max ranks rest _).1
  · exact (le_foldl_max ranks rest _).2 q hq

/-! ## One layer -/

namespace HoldemHand

/-- The seats with the best rank of those that can win a layer. -/
def bestSeats (h : HoldemHand) (ranks : PlayerId → HandRank) (t : Nat) : List Nat :=
  (h.eligibleSeats t).filter fun w =>
    ∀ v ∈ h.eligibleSeats t, ranks (h.idAt v) ≤ ranks (h.idAt w)

/-- The chips of the layer between two heights. -/
def layerPot (h : HoldemHand) (lo t : Nat) : Nat := (t - lo) * (h.reaching t).card

/-- What a seat is paid of a layer: the best contenders share it; without a
contender it is returned. -/
def layerAward (h : HoldemHand) (ranks : PlayerId → HandRank) (lo t j : Nat) : Nat :=
  if h.eligibleSeats t = [] then if t ≤ h.committed j then h.layerPot lo t else 0
  else h.share (h.layerPot lo t) (h.bestSeats ranks t) j

/-- What a seat is paid of the layers that end at the heights `ts`. -/
def layersAward (h : HoldemHand) (ranks : PlayerId → HandRank) : Nat → List Nat → Nat → Nat
  | _, [], _ => 0
  | lo, t :: ts, j => h.layerAward ranks lo t j + layersAward h ranks t ts j

end HoldemHand

theorem bestSeats_sub (hi : i ∈ h.bestSeats ranks t) : i ∈ h.contenderSeats ∧ t ≤ h.committed i :=
  mem_eligibleSeats.mp (List.mem_of_mem_filter hi)

theorem nodup_eligibleSeats (h : HoldemHand) (t : Nat) : (h.eligibleSeats t).Nodup :=
  List.nodup_range.filter _

/-- The source picks the winners by comparing with the largest rank. -/
theorem bestSeats_eq {first : Nat} {rest : List Nat}
    (heligible : h.eligibleSeats t = first :: rest) :
    ((first :: rest).map h.idAt).filter
        (fun player => ranks player = bestRank ranks (h.idAt first) (rest.map h.idAt)) =
      (h.bestSeats ranks t).map h.idAt := by
  rw [List.filter_map, bestSeats, heligible]
  congr 1
  refine List.filter_congr fun w hw => ?_
  have hmem : ∀ v ∈ first :: rest, h.idAt v ∈ h.idAt first :: rest.map h.idAt := fun v hv => by
    rw [← List.map_cons]
    exact List.mem_map.mpr ⟨v, hv, rfl⟩
  simp only [Function.comp_apply, decide_eq_decide]
  constructor
  · intro hbest v hv
    rw [hbest]
    exact le_bestRank ranks (hmem v hv)
  · intro hall
    obtain ⟨q, hq, hrank⟩ := bestRank_mem ranks (h.idAt first) (rest.map h.idAt)
    rw [← List.map_cons] at hq
    obtain ⟨v, hv, rfl⟩ := List.mem_map.mp hq
    exact le_antisymm (le_bestRank ranks (hmem w hw)) (hrank ▸ hall v hv)

theorem bestSeats_ne_nil (ranks : PlayerId → HandRank) (hne : h.eligibleSeats t ≠ []) :
    h.bestSeats ranks t ≠ [] := by
  obtain ⟨first, rest, heligible⟩ := List.exists_cons_of_ne_nil hne
  obtain ⟨q, hq, hrank⟩ := bestRank_mem ranks (h.idAt first) (rest.map h.idAt)
  have hmem : q ∈ (h.bestSeats ranks t).map h.idAt := by
    rw [← bestSeats_eq heligible]
    exact List.mem_filter.mpr ⟨by rw [List.map_cons]; exact hq, by simpa using hrank⟩
  intro hnil
  rw [hnil] at hmem
  cases hmem

theorem layerAward_splitPays (ranks : PlayerId → HandRank) (lo : Nat)
    (hne : h.eligibleSeats t ≠ []) :
    SplitPays h (h.layerPot lo t) (h.bestSeats ranks t) (h.layerAward ranks lo t) := by
  have hshare := share_splitPays (h := h) (bestSeats_ne_nil ranks hne)
    ((nodup_eligibleSeats h t).filter _)
    (fun i hi => (mem_contenderSeats.mp (bestSeats_sub hi).1).1) (h.layerPot lo t)
  have heq : h.layerAward ranks lo t = h.share (h.layerPot lo t) (h.bestSeats ranks t) := by
    funext j
    exact if_neg hne
  rw [heq]
  exact hshare

/-- A layer goes, in full, to seats that reach it. -/
theorem layerAward_pays (ranks : PlayerId → HandRank) (lo : Nat) (hno : ¬h.Orphan t) :
    (∀ j ∈ range h.size, ¬t ≤ h.committed j → h.layerAward ranks lo t j = 0) ∧
      ∑ j ∈ range h.size, h.layerAward ranks lo t j = h.layerPot lo t := by
  by_cases hnil : h.eligibleSeats t = []
  · have hnone : ∀ w ∈ h.contenderSeats, h.committed w < t := by
      intro w hw
      by_contra hge
      have : w ∈ h.eligibleSeats t := mem_eligibleSeats.mpr ⟨hw, by omega⟩
      rw [hnil] at this
      cases this
    have hone : (h.reaching t).card = 1 := by
      by_contra hcard
      exact hno ⟨hnone, hcard⟩
    have hsum : ∑ j ∈ range h.size, h.layerAward ranks lo t j =
        (h.reaching t).card * h.layerPot lo t := by
      simp only [layerAward, hnil, if_true]
      rw [← sum_filter, sum_const, nsmul_eq_mul, Nat.cast_id]
      rfl
    refine ⟨fun j _ hj => by simp [layerAward, hnil, hj], ?_⟩
    rw [hsum, hone, Nat.one_mul]
  · have hsplit := layerAward_splitPays ranks lo hnil
    exact ⟨fun j hj hnot => hsplit.support j (mem_range.mp hj) fun hw => hnot (bestSeats_sub hw).2,
      hsplit.sum⟩

/-- One round of the layer loop. -/
theorem settleLayer_run (hd : h.DistinctIds) (ranks : PlayerId → HandRank)
    (previous threshold : Chips) :
    (∃ h', (settleLayer h.remainingContenders ranks previous threshold).run h = .ok () h' ∧
      h.Credits (h.layerAward ranks previous.value threshold.value) h' ∧
      ¬h.Orphan threshold.value) ∨
    (∃ h', (settleLayer h.remainingContenders ranks previous threshold).run h
        = .error .chipOverflow h' ∧
      2 ^ 64 ≤ h.total (·.stack.value) + h.layerPot previous.value threshold.value) ∨
    ((settleLayer h.remainingContenders ranks previous threshold).run h
        = .error .stateInvariant h ∧ h.Orphan threshold.value) := by
  unfold settleLayer
  rw [run_bind, run_get]
  dsimp only
  rw [length_contributorsAt]
  rcases hpot : (threshold.saturatingSub previous).checkedMul (h.reaching threshold.value).card
    with _ | pot
  · refine .inr (.inl ⟨h, by simp, ?_⟩)
    rw [Chips.checkedMul_eq_none, Chips.saturatingSub_value] at hpot
    exact hpot.trans (Nat.le_add_left _ _)
  rw [Chips.checkedMul_eq_some, Chips.saturatingSub_value] at hpot
  have hpot : pot.value = h.layerPot previous.value threshold.value := hpot
  rw [run_bind, run_orThrow_some, eligibleAt_eq hd]
  dsimp only
  rcases heligible : h.eligibleSeats threshold.value with _ | ⟨first, rest⟩
  · -- no contender reaches the layer
    have hnone : ∀ w ∈ h.contenderSeats, h.committed w < threshold.value := by
      intro w hw
      by_contra hge
      have : w ∈ h.eligibleSeats threshold.value := mem_eligibleSeats.mpr ⟨hw, by omega⟩
      rw [heligible] at this
      cases this
    by_cases hone : (h.reaching threshold.value).card = 1
    · obtain ⟨k, hklt, hkge, hsole⟩ := contributorsAt_of_card_eq_one hone
      simp only [List.map_nil, hsole]
      rcases award_run hd hklt pot with ⟨h', hrun, hc⟩ | ⟨hrun, hover⟩
      · refine .inl ⟨h', hrun, hc.congr fun j hj => ?_, fun ho => ho.2 hone⟩
        -- the seat that is paid is the only one that reaches the layer
        obtain ⟨k', hk'⟩ := card_eq_one.mp hone
        have hreach : ∀ m < h.size, threshold.value ≤ h.committed m → m = k' := fun m hm hge =>
          mem_singleton.mp (hk' ▸ mem_filter.mpr ⟨mem_range.mpr hm, hge⟩)
        have hiff : j = k ↔ threshold.value ≤ h.committed j := by
          constructor
          · rintro rfl
            exact hkge
          · exact fun hge => (hreach j hj hge).trans (hreach k hklt hkge).symm
        simp only [layerAward, heligible, if_true, hiff, hpot]
      · refine .inr (.inl ⟨h, hrun, ?_⟩)
        have := le_total hklt (·.stack.value)
        omega
    · have hlen : (h.contributorsAt threshold.value).length ≠ 1 := by
        rw [length_contributorsAt]
        exact hone
      refine .inr (.inr ⟨?_, hnone, hone⟩)
      simp only [List.map_nil]
      split
      · rename_i sole hsole
        rw [hsole] at hlen
        exact absurd rfl hlen
      · rfl
  · -- the best of the contenders that reach the layer share it
    have hne : h.eligibleSeats threshold.value ≠ [] := by simp [heligible]
    have hlt : ∀ w ∈ h.bestSeats ranks threshold.value, w < h.size := fun w hw =>
      (mem_contenderSeats.mp (bestSeats_sub hw).1).1
    rw [List.map_cons]
    dsimp only
    rw [← List.map_cons, bestSeats_eq heligible]
    rcases awardSplit_run hd (bestSeats_ne_nil ranks hne)
      ((nodup_eligibleSeats h _).filter _) hlt pot with
      ⟨h', hrun, hc⟩ | ⟨h', hrun, hover⟩
    · refine .inl ⟨h', hrun, hc.congr fun j _ => ?_, fun ho => ?_⟩
      · rw [layerAward, if_neg hne, hpot]
      · have hfirst :=
          mem_eligibleSeats.mp (heligible ▸ List.mem_cons_self : first ∈ h.eligibleSeats _)
        exact absurd (ho.1 first hfirst.1) (by omega)
    · exact .inr (.inl ⟨h', hrun, hpot ▸ hover⟩)

/-! ## The layer loop -/

section Frame

variable {g : Nat → Nat} (hc : h.Credits g h')
include hc

/-- Awards change neither the contenders nor the layers. -/
theorem HoldemHand.Credits.remainingContenders :
    h'.remainingContenders = h.remainingContenders := by
  rw [remainingContenders_eq, remainingContenders_eq, hc.size]
  have hfilter : ((List.range h.size).filter fun i => (h'.seatAt i).status ≠ .folded) =
      (List.range h.size).filter fun i => (h.seatAt i).status ≠ .folded :=
    List.filter_congr fun i hi => by rw [hc.status (List.mem_range.mp hi)]
  rw [hfilter]
  exact List.map_congr_left fun i hi =>
    hc.idAt (List.mem_range.mp (List.mem_of_mem_filter hi))

theorem HoldemHand.Credits.committed {j : Nat} (hj : j ∈ range h.size) :
    h'.committed j = h.committed j :=
  congrArg Chips.value (hc.totalCommitted (mem_range.mp hj))

theorem HoldemHand.Credits.orphan_iff {t : Nat} : h'.Orphan t ↔ h.Orphan t := by
  unfold Orphan
  rw [hc.contenderSeats]
  have hreach : h'.reaching t = h.reaching t := by
    unfold HoldemHand.reaching
    rw [hc.size]
    exact LayeredPot.reaching_congr fun j hj => hc.committed hj
  rw [hreach]
  refine and_congr_left fun _ => forall₂_congr fun w hw => ?_
  rw [hc.committed (mem_range.mpr (mem_contenderSeats.mp hw).1)]

end Frame

/-- `ts` lists, in increasing order, the commitments above `lo`. -/
structure Layers (h : HoldemHand) (lo : Nat) (ts : List Chips) : Prop where
  sorted : ts.Pairwise (·.value < ·.value)
  above : ∀ t ∈ ts, lo < t.value
  cover : ∀ j ∈ range h.size, h.committed j ≤ lo ∨ h.committed j ∈ ts.map (·.value)

/-- No commitment ends inside the lowest layer. -/
theorem Layers.gap {lo : Nat} {t : Chips} (hl : Layers h lo (t :: ts)) :
    ∀ j ∈ range h.size, h.committed j ≤ lo ∨ t.value ≤ h.committed j := by
  intro j hj
  refine (hl.cover j hj).imp_right fun hmem => ?_
  rcases List.mem_cons.mp hmem with he | hmem
  · exact he.ge
  · obtain ⟨t', ht', he⟩ := List.mem_map.mp hmem
    exact he ▸ ((List.pairwise_cons.mp hl.sorted).1 t' ht').le

theorem Layers.tail {lo : Nat} {t : Chips} {ts : List Chips} (hl : Layers h lo (t :: ts)) :
    Layers h t.value ts where
  sorted := (List.pairwise_cons.mp hl.sorted).2
  above := (List.pairwise_cons.mp hl.sorted).1
  cover := by
    intro j hj
    rcases hl.cover j hj with hle | hmem
    · exact .inl (hle.trans (hl.above t List.mem_cons_self).le)
    · rcases List.mem_cons.mp hmem with he | hmem
      · exact .inl he.le
      · exact .inr hmem

/-- Awards do not change what is awarded for the other layers. -/
theorem HoldemHand.Credits.layerAward (hc : h.Credits g h') (ranks : PlayerId → HandRank)
    (lo t : Nat) {j : Nat} (hj : j < h.size) :
    h'.layerAward ranks lo t j = h.layerAward ranks lo t j := by
  have hreach : h'.reaching t = h.reaching t := by
    unfold HoldemHand.reaching
    rw [hc.size]
    exact LayeredPot.reaching_congr fun j hj => hc.committed hj
  have heligible : h'.eligibleSeats t = h.eligibleSeats t := by
    unfold eligibleSeats
    rw [hc.size]
    refine List.filter_congr fun k hk => ?_
    have hk := List.mem_range.mp hk
    rw [hc.status hk, hc.committed (mem_range.mpr hk)]
  have hid : ∀ k ∈ h.eligibleSeats t, h'.idAt k = h.idAt k := fun k hk =>
    hc.idAt (mem_contenderSeats.mp (mem_eligibleSeats.mp hk).1).1
  have hbest : h'.bestSeats ranks t = h.bestSeats ranks t := by
    unfold bestSeats
    rw [heligible]
    refine List.filter_congr fun w hw => ?_
    rw [hid w hw]
    simp only [decide_eq_decide]
    exact forall₂_congr fun v hv => by rw [hid v hv]
  unfold HoldemHand.layerAward layerPot HoldemHand.share oddSeats seatRotation
  rw [hreach, heligible, hbest, hc.committed (mem_range.mpr hj), hc.dealerIndex, hc.size]

theorem HoldemHand.Credits.layersAward (hc : h.Credits g h') (ranks : PlayerId → HandRank)
    (lo : Nat) (ts : List Nat) {j : Nat} (hj : j < h.size) :
    h'.layersAward ranks lo ts j = h.layersAward ranks lo ts j := by
  induction ts generalizing lo with
  | nil => rfl
  | cons t ts ih =>
    unfold HoldemHand.layersAward
    rw [hc.layerAward ranks lo t hj, ih]

theorem Layers.of_credits {lo : Nat} (hl : Layers h lo ts) (hc : h.Credits g h') :
    Layers h' lo ts where
  sorted := hl.sorted
  above := hl.above
  cover := by
    intro j hj
    rw [hc.size] at hj
    rw [hc.committed hj]
    exact hl.cover j hj

/-- The layer loop pays every layer, or overflows, or stops at an orphan. -/
theorem settleLayers_run (contenders : List PlayerId) (ranks : PlayerId → HandRank) :
    ∀ (ts : List Chips) (lo : Chips) (h : HoldemHand), h.DistinctIds →
      h.remainingContenders = contenders → Layers h lo.value ts →
      (∃ h', (settleLayers contenders ranks lo ts).run h = .ok () h' ∧
        h.Credits (h.layersAward ranks lo.value (ts.map (·.value))) h' ∧
        ∀ t ∈ ts, ¬h.Orphan t.value) ∨
      (∃ h', (settleLayers contenders ranks lo ts).run h = .error .chipOverflow h' ∧
        2 ^ 64 + LayeredPot.potBelow (range h.size) h.committed lo.value ≤
          h.total (·.stack.value) + ∑ j ∈ range h.size, h.committed j) ∨
      (∃ h', (settleLayers contenders ranks lo ts).run h = .error .stateInvariant h' ∧
        ∃ t ∈ ts, h.Orphan t.value) := by
  intro ts
  induction ts with
  | nil => exact fun lo h _ _ _ => .inl ⟨h, rfl, .refl h, by simp⟩
  | cons t ts ih =>
    intro lo h hd hcontenders hl
    have hlt := hl.above t List.mem_cons_self
    have hlayer : LayeredPot.potBelow (range h.size) h.committed lo.value +
        (t.value - lo.value) * (h.reaching t.value).card =
          LayeredPot.potBelow (range h.size) h.committed t.value :=
      LayeredPot.potBelow_add_layer hlt.le hl.gap
    rcases settleLayer_run hd ranks lo t with
      ⟨h₁, hrun₁, hc₁, hno⟩ | ⟨h₁, hrun₁, hover⟩ | ⟨hrun₁, horphan⟩
    · rw [hcontenders] at hrun₁
      simp only [settleLayers, run_bind_ok hrun₁]
      have hcommitted : ∀ j ∈ range h.size, h₁.committed j = h.committed j :=
        fun j hj => hc₁.committed hj
      rcases ih t h₁ (hc₁.distinct hd) (hc₁.remainingContenders.trans hcontenders)
          (hl.tail.of_credits hc₁) with
        ⟨h₂, hrun₂, hc₂, hno₂⟩ | ⟨h₂, hrun₂, hover⟩ | ⟨h₂, hrun₂, t', ht', horphan⟩
      · refine .inl ⟨h₂, hrun₂, (hc₁.trans hc₂).congr fun j hj => ?_, fun t' ht' => ?_⟩
        · exact congrArg _ (hc₁.layersAward ranks t.value (ts.map (·.value)) hj)
        rcases List.mem_cons.mp ht' with rfl | ht'
        · exact hno
        · exact fun ho => hno₂ t' ht' (hc₁.orphan_iff.mpr ho)
      · refine .inr (.inl ⟨h₂, hrun₂, ?_⟩)
        have hsame : ∑ j ∈ range h.size, h₁.committed j = ∑ j ∈ range h.size, h.committed j :=
          sum_congr rfl hcommitted
        rw [hc₁.size, LayeredPot.potBelow_congr hcommitted, hsame, hc₁.total_stack,
          (layerAward_pays ranks lo.value hno).2, layerPot] at hover
        omega
      · exact .inr (.inr ⟨h₂, hrun₂, t', List.mem_cons_of_mem _ ht', hc₁.orphan_iff.mp horphan⟩)
    · rw [hcontenders] at hrun₁
      refine .inr (.inl ⟨h₁, by simp only [settleLayers, run_bind_error hrun₁], ?_⟩)
      have :=
        (LayeredPot.potBelow_le_sum : LayeredPot.potBelow (range h.size) h.committed t.value ≤ _)
      rw [layerPot] at hover
      omega
    · rw [hcontenders] at hrun₁
      exact .inr (.inr ⟨h, by simp only [settleLayers, run_bind_error hrun₁], t,
        List.mem_cons_self, horphan⟩)

/-- Without orphans the awards pay out every layer. -/
theorem layersAward_pays (ranks : PlayerId → HandRank) {lo : Nat} (hl : Layers h lo ts)
    (hno : ∀ t ∈ ts, ¬h.Orphan t.value) :
    LayeredPot.Pays (range h.size) h.committed lo (ts.map (·.value))
      (h.layersAward ranks lo (ts.map (·.value))) := by
  induction ts generalizing lo with
  | nil => exact .nil lo
  | cons t ts ih =>
    obtain ⟨hsupport, hsum⟩ := layerAward_pays ranks lo (hno t List.mem_cons_self)
    exact .cons (hl.above t List.mem_cons_self) hl.gap hsupport hsum
      (ih hl.tail fun t' ht' => hno t' (List.mem_cons_of_mem _ ht'))

/-! ## The thresholds -/

theorem mem_thresholds {t : Chips} :
    t ∈ h.thresholds ↔ 0 < t.value ∧ ∃ j < h.size, (h.seatAt j).totalCommitted = t := by
  simp only [thresholds, List.mem_insertionSort, List.mem_dedup, List.mem_filter, List.mem_map,
    mem_seats_iff, decide_eq_true_eq]
  constructor
  · rintro ⟨⟨_, ⟨j, hj, rfl⟩, rfl⟩, hpos⟩
    exact ⟨hpos, j, hj, rfl⟩
  · rintro ⟨hpos, j, hj, rfl⟩
    exact ⟨⟨_, ⟨j, hj, rfl⟩, rfl⟩, hpos⟩

theorem layers_thresholds (h : HoldemHand) : Layers h 0 h.thresholds where
  sorted := by
    have hsorted := List.pairwise_insertionSort (· ≤ ·)
      ((h.seats.map (·.totalCommitted)).filter (0 < ·.value)).dedup
    have hnodup : h.thresholds.Nodup := (List.perm_insertionSort _ _).nodup_iff.mpr
      (List.nodup_dedup _)
    exact (hsorted.and hnodup).imp fun hab => lt_of_le_of_ne hab.1
      fun he => hab.2 (Chips.ext he)
  above := fun t ht => (mem_thresholds.mp ht).1
  cover := by
    intro j hj
    rcases Nat.eq_zero_or_pos (h.committed j) with h0 | hpos
    · exact .inl h0.le
    · exact .inr (List.mem_map.mpr ⟨_, mem_thresholds.mpr ⟨hpos, j, mem_range.mp hj, rfl⟩, rfl⟩)

/-- At most one seat has committed more than every contender. -/
def HoldemHand.LoneExcess (h : HoldemHand) : Prop :=
  ∀ i < h.size, ∀ j < h.size, (∀ w ∈ h.contenderSeats, h.committed w < h.committed i) →
    (∀ w ∈ h.contenderSeats, h.committed w < h.committed j) → i = j

/-- The layer loop meets an orphan exactly when two seats committed more than
every contender: the lower of the two heights is then a layer of folded seats. -/
theorem exists_orphan_iff (hne : h.contenderSeats.Nonempty ∨ h.size ≤ 1) :
    (∃ t ∈ h.thresholds, h.Orphan t.value) ↔ ¬h.LoneExcess := by
  constructor
  · rintro ⟨t, ht, hnone, hcard⟩ hlone
    obtain ⟨hpos, k, hk, rfl⟩ := mem_thresholds.mp ht
    refine hcard (card_eq_one.mpr ⟨k, ?_⟩)
    ext j
    simp only [LayeredPot.reaching, mem_filter, mem_range, mem_singleton]
    constructor
    · rintro ⟨hj, hge⟩
      exact hlone j hj k hk (fun w hw => (hnone w hw).trans_le hge) hnone
    · rintro rfl
      exact ⟨hk, le_rfl⟩
  · intro hlone
    unfold LoneExcess at hlone
    push Not at hlone
    obtain ⟨i, hi, j, hj, hi_above, hj_above, hij⟩ := hlone
    -- the lower of the two commitments
    wlog hle : h.committed i ≤ h.committed j generalizing i j
    · exact this j hj i hi hj_above hi_above hij.symm (by omega)
    refine ⟨(h.seatAt i).totalCommitted, mem_thresholds.mpr ⟨?_, i, hi, rfl⟩, hi_above, ?_⟩
    · rcases hne with ⟨w, hw⟩ | hone
      · exact Nat.zero_lt_of_lt (hi_above w hw)
      · omega
    · intro hcard
      obtain ⟨k, hk⟩ := card_eq_one.mp hcard
      have hmem : ∀ m < h.size, h.committed i ≤ h.committed m → m = k := fun m hm hge =>
        mem_singleton.mp (hk ▸ mem_filter.mpr ⟨mem_range.mpr hm, hge⟩)
      exact hij ((hmem i hi le_rfl).trans (hmem j hj hle).symm)

/-! ## The whole showdown -/

/-- The cards of a showdown: every contender shows two cards, and no card is
shown twice. -/
structure ShowsCards (h : HoldemHand) (board : Board) (holeCards : HoleCards) : Prop where
  covers : ∀ p ∈ h.remainingContenders, (holeCards p).isSome
  distinct : (h.shownCards board holeCards).Nodup

instance (h : HoldemHand) (board : Board) (holeCards : HoleCards) :
    Decidable (ShowsCards h board holeCards) :=
  decidable_of_iff ((∀ p ∈ h.remainingContenders, (holeCards p).isSome) ∧
    (h.shownCards board holeCards).Nodup) ⟨fun hc => ⟨hc.1, hc.2⟩, fun hc => ⟨hc.1, hc.2⟩⟩

theorem payShowdown_eq (hs : h.street = .showdown) (hcards : ShowsCards h board holeCards) :
    (payShowdown board holeCards).run h =
      (do settleLayers h.remainingContenders (rankOf board holeCards) Chips.zero h.thresholds
          modify fun h => { h with street := .complete } : HandM Unit).run h := by
  have hcovers : ¬(h.remainingContenders.any fun player => (holeCards player).isNone) = true := by
    simp only [List.any_eq_true, not_exists, not_and, Bool.not_eq_true, Option.isNone_eq_false_iff]
    exact hcards.covers
  unfold payShowdown
  rw [run_bind, run_get]
  dsimp only
  rw [if_neg (not_not.mpr hs), if_neg hcovers, if_neg (not_not.mpr hcards.distinct)]

theorem showsCards_of_ok (hrun : (payShowdown board holeCards).run h = .ok () h') :
    h.street = .showdown ∧ ShowsCards h board holeCards := by
  unfold payShowdown at hrun
  rw [run_bind, run_get] at hrun
  dsimp only at hrun
  split at hrun
  · cases hrun
  split at hrun
  · cases hrun
  split at hrun
  · cases hrun
  rename_i h1 h2 h3
  simp only [List.any_eq_true, not_exists, not_and, Bool.not_eq_true,
    Option.isNone_eq_false_iff] at h2
  exact ⟨not_not.mp h1, h2, not_not.mp h3⟩

/-- What a finished showdown has paid. -/
structure ShowdownPaid (h : HoldemHand) (g : Nat → Nat) (h₁ : HoldemHand) : Prop where
  credits : h.Credits g h₁
  pays : LayeredPot.Pays (range h.size) h.committed 0 (h.thresholds.map (·.value)) g

theorem ShowdownPaid.sum_eq {h₁ : HoldemHand} (hp : ShowdownPaid h g h₁) :
    ∑ j ∈ range h.size, g j = h.wagered := by
  have := hp.pays.sum_eq (layers_thresholds h).cover
  rw [LayeredPot.potBelow_zero, Nat.zero_add] at this
  exact this

/-- The showdown pays the whole pot, or the stacks cannot hold it, or a layer has
no owner. -/
theorem payShowdown_run (hd : h.DistinctIds) (hf : ∀ j < h.size, (h.seatAt j).Funded)
    (hne : h.contenderSeats.Nonempty ∨ h.size ≤ 1) (hs : h.street = .showdown)
    (hcards : ShowsCards h board holeCards) :
    (∃ g h₁, ShowdownPaid h g h₁ ∧ h.LoneExcess ∧
      (payShowdown board holeCards).run h = .ok () { h₁ with street := .complete }) ∨
    (∃ h', (payShowdown board holeCards).run h = .error .chipOverflow h' ∧
      2 ^ 64 ≤ h.total (·.startingStack.value)) ∨
    (∃ h', (payShowdown board holeCards).run h = .error .stateInvariant h' ∧ ¬h.LoneExcess) := by
  rw [payShowdown_eq hs hcards]
  rcases settleLayers_run _ (rankOf board holeCards) h.thresholds Chips.zero h hd rfl
      (layers_thresholds h) with
    ⟨h₁, hrun, hc, hno⟩ | ⟨h₁, hrun, hover⟩ | ⟨h₁, hrun, horphan⟩
  · refine .inl ⟨_, h₁, ⟨hc, layersAward_pays _ (layers_thresholds h) hno⟩, ?_, run_bind_ok hrun⟩
    by_contra hlone
    obtain ⟨t, ht, ho⟩ := (exists_orphan_iff hne).mpr hlone
    exact hno t ht ho
  · refine .inr (.inl ⟨h₁, run_bind_error hrun, ?_⟩)
    rw [Chips.zero_value, LayeredPot.potBelow_zero, Nat.add_zero] at hover
    exact hover.trans_eq (total_of_funded hf)
  · exact .inr (.inr ⟨h₁, run_bind_error hrun, (exists_orphan_iff hne).mp horphan⟩)

/-- After a paid showdown the stacks hold the buy-ins again. -/
theorem ShowdownPaid.totalDelta_eq_zero {h₁ : HoldemHand}
    (hf : ∀ j < h.size, (h.seatAt j).Funded) (hp : ShowdownPaid h g h₁) :
    ({ h₁ with street := .complete } : HoldemHand).totalDelta = 0 := by
  rw [totalDelta_eq_zero_iff]
  change h₁.total (·.stack.value) = h₁.total (·.startingStack.value)
  rw [hp.credits.total_stack, hp.credits.sameRoster.total_startingStack, hp.sum_eq,
    total_of_funded hf]

end TokenHoldem
