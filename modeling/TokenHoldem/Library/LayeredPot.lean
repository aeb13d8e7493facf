import Mathlib.Algebra.BigOperators.Ring.Finset
import Mathlib.Algebra.Order.BigOperators.Group.Finset
import Mathlib.Data.Finset.Max

/-!
# Layered pots

Contributions `c i` of the members of a finite set `s`, cut into layers at
increasing heights. The layer between `lo` and `hi` holds `hi - lo` for every
member that reaches `hi`, provided no contribution ends strictly inside it.

* `potBelow_add_layer` — a layer is the difference of what lies below its ends.
* `Pays.sum_eq` — payouts of all layers add up to the contributions.
* `Pays.le_potBelow` — a member that is only paid from layers it reaches gets at
  most `∑ j, min (c j) (c i)`.
-/

namespace TokenHoldem.Library.LayeredPot

open Finset

variable {ι : Type*} {s : Finset ι} {c : ι → ℕ} {lo hi : ℕ} {ts : List ℕ} {g : ι → ℕ}

/-- What lies below height `t`. -/
def potBelow (s : Finset ι) (c : ι → ℕ) (t : ℕ) : ℕ := ∑ i ∈ s, min (c i) t

/-- The members whose contribution reaches height `t`. -/
def reaching (s : Finset ι) (c : ι → ℕ) (t : ℕ) : Finset ι := s.filter fun i => t ≤ c i

@[simp] theorem potBelow_zero : potBelow s c 0 = 0 := by
  simp [potBelow]

theorem potBelow_eq_sum (h : ∀ i ∈ s, c i ≤ hi) : potBelow s c hi = ∑ i ∈ s, c i :=
  sum_congr rfl fun i hs => min_eq_left (h i hs)

theorem potBelow_le_sum : potBelow s c hi ≤ ∑ i ∈ s, c i :=
  sum_le_sum fun _ _ => min_le_left _ _

theorem potBelow_congr {c' : ι → ℕ} (h : ∀ i ∈ s, c i = c' i) :
    potBelow s c hi = potBelow s c' hi :=
  sum_congr rfl fun i hs => by rw [h i hs]

theorem reaching_congr {c' : ι → ℕ} (h : ∀ i ∈ s, c i = c' i) :
    reaching s c hi = reaching s c' hi :=
  filter_congr fun i hs => by rw [h i hs]

theorem potBelow_add_layer (hle : lo ≤ hi) (hgap : ∀ i ∈ s, c i ≤ lo ∨ hi ≤ c i) :
    potBelow s c lo + (hi - lo) * (reaching s c hi).card = potBelow s c hi := by
  have hcard : (hi - lo) * (reaching s c hi).card = ∑ i ∈ s, if hi ≤ c i then hi - lo else 0 := by
    rw [← sum_filter, sum_const, nsmul_eq_mul, Nat.cast_id, Nat.mul_comm]
    rfl
  rw [hcard]
  unfold potBelow
  rw [← sum_add_distrib]
  refine sum_congr rfl fun i his => ?_
  rcases hgap i his with h | h
  · rw [min_eq_left h, min_eq_left (h.trans hle)]
    split <;> omega
  · rw [if_pos h]
    omega

/-- `g` pays out the layers that end at the heights `ts` above `lo`: each layer
goes, in full, to members that reach it. -/
inductive Pays (s : Finset ι) (c : ι → ℕ) : ℕ → List ℕ → (ι → ℕ) → Prop
  | nil (lo : ℕ) : Pays s c lo [] fun _ => 0
  | cons {lo hi : ℕ} {ts : List ℕ} {layer rest : ι → ℕ} (lt : lo < hi)
      (gap : ∀ i ∈ s, c i ≤ lo ∨ hi ≤ c i)
      (support : ∀ i ∈ s, ¬hi ≤ c i → layer i = 0)
      (sum : ∑ i ∈ s, layer i = (hi - lo) * (reaching s c hi).card)
      (above : Pays s c hi ts rest) : Pays s c lo (hi :: ts) fun i => layer i + rest i

/-- All layers together are all contributions. -/
theorem Pays.sum_eq (hp : Pays s c lo ts g) (hcover : ∀ i ∈ s, c i ≤ lo ∨ c i ∈ ts) :
    potBelow s c lo + ∑ i ∈ s, g i = ∑ i ∈ s, c i := by
  induction hp with
  | nil lo => simpa using potBelow_eq_sum fun i hi => by simpa using hcover i hi
  | cons lt gap support sum above ih =>
    have hlayer := potBelow_add_layer lt.le gap
    have hrest := ih fun i hi => by
      rcases hcover i hi with h | h
      · exact .inl (h.trans lt.le)
      · rcases List.mem_cons.mp h with h | h
        · exact .inl h.le
        · exact .inr h
    rw [sum_add_distrib]
    omega

/-- Nobody is paid more than lies below its own contribution. -/
theorem Pays.le_potBelow (hp : Pays s c lo ts g) {i : ι} (his : i ∈ s) :
    potBelow s c (min (c i) lo) + g i ≤ potBelow s c (c i) := by
  induction hp with
  | nil lo =>
    refine sum_le_sum fun j _ => ?_
    omega
  | @cons lo hi ts layer rest lt gap support sum above ih =>
    have hlayer := potBelow_add_layer lt.le gap
    rcases gap i his with h | h
    · -- the contribution ends below this layer
      have hzero := support i his (by omega)
      rw [min_eq_left h]
      rw [min_eq_left (h.trans lt.le)] at ih
      dsimp only
      omega
    · have hle : layer i ≤ ∑ j ∈ s, layer j :=
        single_le_sum (fun _ _ => Nat.zero_le _) his
      rw [min_eq_right (lt.le.trans h)]
      rw [min_eq_right h] at ih
      dsimp only
      omega

/-- A member that takes every contribution gets no more than lies below its own
only if it contributed most. -/
theorem sum_le_sum_min_iff {w : ι} :
    ∑ j ∈ s, c j ≤ ∑ j ∈ s, min (c w) (c j) ↔ ∀ j ∈ s, c j ≤ c w := by
  constructor
  · intro hle j hj
    have hmin : ∀ k ∈ s, min (c w) (c k) ≤ c k := fun k _ => min_le_right _ _
    have heq := (sum_eq_sum_iff_of_le hmin).mp (le_antisymm (sum_le_sum hmin) hle) j hj
    exact heq ▸ min_le_left _ _
  · exact fun h => sum_le_sum fun j hj => le_min (h j hj) le_rfl

end TokenHoldem.Library.LayeredPot
