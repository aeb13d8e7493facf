import Mathlib.Data.List.Basic
import Mathlib.Order.Compare
import Mathlib.Order.Lattice

/-!
# Search by bisection

`slice::binary_search_by` of the standard library of Rust: a window is halved until
one item is left. On items in strictly increasing order of a key it finds the item with
that key, if there is one.

- `Within` — the window still holds every index with the key;
- `bisect_within` — halving keeps that;
- `binarySearchBy_eq_some_iff` — the search finds the item with the key.
-/

namespace TokenHoldem.Library

variable {α κ : Type} [LinearOrder κ]

/-- The loop: `size` items from `base` on are left. `fuel` bounds the rounds. -/
def bisect (order : Nat → Ordering) : Nat → Nat → Nat → Nat
  | 0, base, _ => base
  | fuel + 1, base, size =>
    if size ≤ 1 then base
    else
      let half := size / 2
      let mid := base + half
      bisect order fuel (if order mid = .gt then base else mid) (size - half)

/-- `items.binary_search_by(order).ok().map(|index| &items[index])`. -/
def binarySearchBy (order : α → Ordering) (items : List α) : Option α :=
  let base := bisect (fun index => (items[index]?.map order).getD .lt) items.length 0 items.length
  items[base]?.filter fun item => order item = .eq

variable {key : α → κ} {items : List α} {k : κ}

/-- Every index with the key `k` is in the window. -/
def Within (key : α → κ) (items : List α) (k : κ) (base size : Nat) : Prop :=
  ∀ index (h : index < items.length), key items[index] = k → base ≤ index ∧ index < base + size

/-- The loop ends at the only index that can have the key. -/
theorem bisect_within (sorted : items.Pairwise fun a b => key a < key b) {fuel base size : Nat}
    (hfuel : size ≤ fuel) (hsize : base + size ≤ items.length)
    (hwithin : Within key items k base size) {index : Nat} (hindex : index < items.length)
    (hkey : key items[index] = k) :
    bisect (fun index => (items[index]?.map fun item => compare (key item) k).getD .lt) fuel base
      size = index := by
  induction fuel generalizing base size with
  | zero =>
    have := hwithin index hindex hkey
    omega
  | succ fuel ih =>
    unfold bisect
    split
    · -- one item is left
      have := hwithin index hindex hkey
      omega
    · have hmid : base + size / 2 < items.length := by omega
      have horder : (items[base + size / 2]?.map fun item => compare (key item) k).getD .lt
          = compare (key items[base + size / 2]) k := by
        rw [List.getElem?_eq_getElem hmid]
        rfl
      dsimp only
      rw [horder]
      split
      · rename_i hgreater
        -- the middle item is too large, and so are those after it
        have hlt : k < key items[base + size / 2] := compare_gt_iff_gt.mp hgreater
        refine ih (by omega) (by omega) fun other hother hsame => ?_
        have hbounds := hwithin other hother hsame
        refine ⟨hbounds.1, ?_⟩
        by_contra hfar
        have hle : key items[base + size / 2] ≤ key items[other] := by
          rcases Nat.lt_or_eq_of_le (show base + size / 2 ≤ other by omega) with hless | heq
          · exact (List.pairwise_iff_getElem.mp sorted _ _ hmid hother hless).le
          · exact le_of_eq (by simp only [heq])
        exact absurd (hlt.trans_le hle) (by rw [hsame]; exact lt_irrefl k)
      · rename_i hgreater
        have hle : key items[base + size / 2] ≤ k := not_lt.mp fun hlt =>
          hgreater (compare_gt_iff_gt.mpr hlt)
        refine ih (by omega) (by omega) fun other hother hsame => ?_
        have hbounds := hwithin other hother hsame
        refine ⟨?_, by omega⟩
        by_contra hnear
        have hless := List.pairwise_iff_getElem.mp sorted other (base + size / 2) hother hmid
          (by omega)
        exact absurd (hless.trans_le hle) (by rw [hsame]; exact lt_irrefl k)

/-- On sorted items the search finds the item with the key. -/
theorem binarySearchBy_eq_some_iff (sorted : items.Pairwise fun a b => key a < key b) {item : α} :
    binarySearchBy (fun item => compare (key item) k) items = some item ↔
      item ∈ items ∧ key item = k := by
  unfold binarySearchBy
  rw [Option.filter_eq_some_iff, decide_eq_true_iff, compare_eq_iff_eq]
  constructor
  · rintro ⟨hitem, hkey⟩
    exact ⟨List.mem_of_getElem? hitem, hkey⟩
  · rintro ⟨hitem, hkey⟩
    obtain ⟨index, hindex, rfl⟩ := List.getElem_of_mem hitem
    have hwhole : Within key items k 0 items.length := fun other hother _ =>
      ⟨Nat.zero_le _, by omega⟩
    refine ⟨?_, hkey⟩
    rw [bisect_within sorted (Nat.le_refl _) (Nat.le_of_eq (Nat.zero_add _)) hwhole hindex hkey]
    exact List.getElem?_eq_getElem hindex

end TokenHoldem.Library
