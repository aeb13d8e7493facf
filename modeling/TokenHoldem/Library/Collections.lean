import Mathlib.Data.Finset.Card
import Mathlib.Data.List.MinMax
import Mathlib.Data.List.Sort
import Mathlib.Order.Compare

/-!
# Ordered collections

`BTreeMap` is `Std.TreeMap`, `sort_by_key` is insertion sort on the key (both
are stable) and `min_by_key` is `List.argmin` (both return the first minimum).
The lemmas say which values an ordered map holds after an update; the code only
ever walks over the values.
-/

namespace TokenHoldem.Library

open List

variable {κ ν α : Type} [LinearOrder κ]

/-- `map.values()`, in the order of the keys. -/
def values (map : Std.TreeMap κ ν) : List ν := map.toList.map Prod.snd

variable {map : Std.TreeMap κ ν} {key : α → κ} {items : List α}

theorem mem_values {v : ν} : v ∈ values map ↔ ∃ k : κ, map[k]? = some v := by
  unfold values
  constructor
  · intro h
    obtain ⟨⟨k, v'⟩, hmem, rfl⟩ := mem_map.mp h
    exact ⟨k, Std.TreeMap.mem_toList_iff_getElem?_eq_some.mp hmem⟩
  · rintro ⟨k, hk⟩
    exact mem_map.mpr ⟨(k, v), Std.TreeMap.mem_toList_iff_getElem?_eq_some.mpr hk, rfl⟩

/-- Inserting brings in the new value only. -/
theorem mem_values_insert {k : κ} {v w : ν} (h : w ∈ values (map.insert k v)) :
    w = v ∨ w ∈ values map := by
  obtain ⟨k', hk'⟩ := mem_values.mp h
  rw [Std.TreeMap.getElem?_insert] at hk'
  split at hk'
  · exact .inl (Option.some.inj hk').symm
  · exact .inr (mem_values.mpr ⟨k', hk'⟩)

@[simp] theorem values_empty : values (∅ : Std.TreeMap κ ν) = [] := rfl

/-- `map.retain(|_, value| keep(value))`. -/
theorem values_filter {keep : ν → Bool} :
    values (map.filter fun _ v => keep v) = (values map).filter keep := by
  unfold values
  rw [Std.TreeMap.toList_filter, filter_map]
  rfl

/-! ## Maps built by a loop -/

section

variable {step : Std.TreeMap κ ν → α → Std.TreeMap κ ν} {map : Std.TreeMap κ ν} {items : List α}

/-- What a loop puts into a map comes from one of its rounds. -/
theorem getElem?_foldl {Q : α → κ → ν → Prop}
    (round : ∀ map item k v, (step map item)[k]? = some v → map[k]? = some v ∨ Q item k v)
    {k : κ} {v : ν} (h : (items.foldl step map)[k]? = some v) :
    map[k]? = some v ∨ ∃ item ∈ items, Q item k v := by
  induction items generalizing map with
  | nil => exact .inl h
  | cons first rest ih =>
    rcases ih h with hfirst | ⟨item, hitem, hQ⟩
    · rcases round map first k v hfirst with hmap | hQ
      · exact .inl hmap
      · exact .inr ⟨first, mem_cons_self, hQ⟩
    · exact .inr ⟨item, mem_cons_of_mem _ hitem, hQ⟩

/-- An entry that no round takes out is there at the end. -/
theorem isSome_foldl_of_mono {k : κ}
    (mono : ∀ map item, (map[k]?).isSome = true → ((step map item)[k]?).isSome = true)
    (h : (map[k]?).isSome = true) : ((items.foldl step map)[k]?).isSome = true := by
  induction items generalizing map with
  | nil => exact h
  | cons first rest ih => exact ih (mono map first h)

/-- The entry that one round makes is there at the end. -/
theorem isSome_foldl_of_mem {k : κ} {item : α}
    (mono : ∀ map item, (map[k]?).isSome = true → ((step map item)[k]?).isSome = true)
    (made : ∀ map, ((step map item)[k]?).isSome = true) (hitem : item ∈ items) :
    ((items.foldl step map)[k]?).isSome = true := by
  obtain ⟨before, rest, rfl⟩ := append_of_mem hitem
  rw [foldl_append, foldl_cons]
  exact isSome_foldl_of_mono mono (made _)

theorem isSome_insert {map : Std.TreeMap κ ν} {k l : κ} {v : ν} (h : (map[k]?).isSome = true) :
    ((map.insert l v)[k]?).isSome = true := by
  rw [Std.TreeMap.getElem?_insert]
  split
  · rfl
  · exact h

end

/-- Maps that agree at every key list the same values. -/
theorem values_congr {map' : Std.TreeMap κ ν} (h : ∀ k : κ, map[k]? = map'[k]?) :
    values map = values map' := by
  unfold values
  rw [Std.TreeMap.Equiv.toList_eq (.of_forall_constGet?_eq h)]

@[simp] theorem length_values : (values map).length = map.size := by
  rw [values, length_map, Std.TreeMap.length_toList]

section

variable {key : α → κ} {value : α → ν} {items : List α}

variable {map : Std.TreeMap κ ν}

/-- A map filled from items with different keys. -/
theorem getElem?_foldl_insert {k : κ} (distinct : (items.map key).Nodup) :
    (items.foldl (fun map item => map.insert (key item) (value item)) map)[k]? =
      ((items.find? (key · = k)).map value).or map[k]? := by
  induction items generalizing map with
  | nil => rfl
  | cons item rest ih =>
    rw [map_cons, nodup_cons] at distinct
    rw [foldl_cons, ih distinct.2, find?_cons, Std.TreeMap.getElem?_insert]
    by_cases hk : key item = k
    · have hrest : rest.find? (key · = k) = none := by
        rw [find?_eq_none]
        intro other hother
        rw [decide_eq_true_eq]
        exact fun heq => distinct.1 (mem_map.mpr ⟨other, hother, heq.trans hk.symm⟩)
      simp [hk, hrest]
    · simp [hk]

/-- Where keys are distinct, an item is found under its own key. -/
theorem find?_key_of_mem (distinct : (items.map key).Nodup) {item : α} (hitem : item ∈ items) :
    items.find? (key · = key item) = some item := by
  cases hfind : items.find? (key · = key item) with
  | none =>
    rw [find?_eq_none] at hfind
    exact absurd (decide_eq_true rfl) (hfind item hitem)
  | some found =>
    have hkey : key found = key item := by simpa using find?_some hfind
    rw [inj_on_of_nodup_map distinct (mem_of_find?_eq_some hfind) hitem hkey]

/-- A map lists its entries in the order of the keys. -/
theorem toList_sorted (map : Std.TreeMap κ ν) : map.toList.Pairwise fun a b => a.1 < b.1 :=
  Std.TreeMap.ordered_keys_toList.imp fun h => compare_lt_iff_lt.mp h

/-- A map filled up with new keys holds the old entries and the new ones. -/
theorem toList_foldl_insert_perm (distinct : (items.map key).Nodup)
    (fresh : ∀ item ∈ items, key item ∉ map) :
    (items.foldl (fun map item => map.insert (key item) (value item)) map).toList.Perm
      (map.toList ++ items.map fun item => (key item, value item)) := by
  have hnodup : ∀ map : Std.TreeMap κ ν, (map.toList.map Prod.fst).Nodup := by
    intro map
    rw [nodup_iff_pairwise_ne, pairwise_map]
    exact (toList_sorted map).imp ne_of_lt
  have hitems : ((items.map fun item => (key item, value item)).map Prod.fst).Nodup := by
    rwa [map_map]
  refine (perm_ext_iff_of_nodup (hnodup _).of_map ?_).mpr ?_
  · refine nodup_append'.mpr ⟨(hnodup map).of_map, hitems.of_map, ?_⟩
    intro entry hold hnew
    obtain ⟨item, hitem, rfl⟩ := mem_map.mp hnew
    have hin := Std.TreeMap.mem_toList_iff_getElem?_eq_some.mp hold
    exact fresh item hitem (Std.TreeMap.mem_iff_isSome_getElem?.mpr (by rw [hin]; rfl))
  · intro entry
    rw [Std.TreeMap.mem_toList_iff_getElem?_eq_some, getElem?_foldl_insert distinct,
      mem_append, Std.TreeMap.mem_toList_iff_getElem?_eq_some, mem_map]
    constructor
    · intro h
      cases hfind : items.find? (key · = entry.1) with
      | none =>
        rw [hfind] at h
        exact .inl h
      | some item =>
        rw [hfind] at h
        refine .inr ⟨item, mem_of_find?_eq_some hfind, Prod.ext ?_ (Option.some.inj h)⟩
        simpa using find?_some hfind
    · rintro (hold | ⟨item, hitem, rfl⟩)
      · have hfind : items.find? (key · = entry.1) = none := by
          rw [find?_eq_none]
          intro item hitem
          rw [decide_eq_true_eq]
          rintro heq
          refine fresh item hitem (Std.TreeMap.mem_iff_isSome_getElem?.mpr ?_)
          rw [heq, hold]
          rfl
        rw [hfind]
        exact hold
      · rw [find?_key_of_mem distinct hitem]
        rfl

/-- A map filled in the order of the keys lists its entries in that order. -/
theorem toList_foldl_insert (sorted : items.Pairwise fun a b => key a < key b) :
    (items.foldl (fun map item => map.insert (key item) (value item))
      (∅ : Std.TreeMap κ ν)).toList = items.map fun item => (key item, value item) := by
  have hnodup : (items.map key).Nodup := by
    rw [nodup_iff_pairwise_ne, pairwise_map]
    exact sorted.imp ne_of_lt
  have hitems : (items.map fun item => (key item, value item)).Pairwise fun a b => a.1 < b.1 :=
    pairwise_map.mpr sorted
  exact List.Perm.eq_of_pairwise (fun a b _ _ hab hba => absurd hab hba.asymm) (toList_sorted _)
    hitems (toList_foldl_insert_perm hnodup fun _ _ => Std.TreeMap.not_mem_emptyc)

theorem values_foldl_insert (sorted : items.Pairwise fun a b => key a < key b) :
    values (items.foldl (fun map item => map.insert (key item) (value item))
      (∅ : Std.TreeMap κ ν)) = items.map value := by
  rw [values, toList_foldl_insert sorted, map_map]
  rfl

theorem values_foldl_insert_perm (distinct : (items.map key).Nodup)
    (fresh : ∀ item ∈ items, key item ∉ map) :
    (values (items.foldl (fun map item => map.insert (key item) (value item)) map)).Perm
      (values map ++ items.map value) := by
  have hentries : (items.foldl (fun map item => map.insert (key item) (value item)) map).toList.Perm
      (map.toList ++ items.map fun item => (key item, value item)) :=
    toList_foldl_insert_perm distinct fresh
  have hvalues := hentries.map Prod.snd
  rw [map_append, map_map] at hvalues
  exact hvalues

theorem size_foldl_insert (distinct : (items.map key).Nodup)
    (fresh : ∀ item ∈ items, key item ∉ map) :
    (items.foldl (fun map item => map.insert (key item) (value item)) map).size =
      map.size + items.length := by
  induction items generalizing map with
  | nil => rfl
  | cons item rest ih =>
    rw [map_cons, nodup_cons] at distinct
    have hitem : key item ∉ map := fresh item mem_cons_self
    rw [foldl_cons, ih distinct.2, Std.TreeMap.size_insert,
      if_neg (fun hin => hitem (Std.TreeMap.contains_iff_mem.mp hin)), length_cons]
    · omega
    · intro other hother
      rw [Std.TreeMap.mem_insert, not_or]
      refine ⟨fun heq => distinct.1 ?_, fresh other (mem_cons_of_mem _ hother)⟩
      exact mem_map.mpr ⟨other, hother, (compare_eq_iff_eq.mp heq).symm⟩

end

/-- Reading a map after an update, for keys with a decidable equality. -/
theorem getElem?_insert_ite {κ ν : Type} [Ord κ] [Std.TransOrd κ] [Std.LawfulEqOrd κ]
    [DecidableEq κ] {map : Std.TreeMap κ ν} {k l : κ} {v : ν} :
    (map.insert k v)[l]? = if k = l then some v else map[l]? := by
  rw [Std.TreeMap.getElem?_insert]
  exact if_congr Std.LawfulEqCmp.compare_eq_iff_eq rfl rfl

/-- The second items of a zip are as many as there are first ones. -/
theorem map_snd_zip_eq_take {β : Type} (as : List α) (bs : List β) :
    (as.zip bs).map Prod.snd = bs.take as.length := by
  induction as generalizing bs with
  | nil => simp
  | cons a as ih => cases bs <;> simp [ih]

theorem map_fst_zip_eq_take {β : Type} (as : List α) (bs : List β) :
    (as.zip bs).map Prod.fst = as.take bs.length := by
  induction as generalizing bs with
  | nil => simp
  | cons a as ih => cases bs <;> simp [ih]

/-- `items.sort_by_key(key)`. -/
def sortByKey (key : α → κ) (items : List α) : List α :=
  items.insertionSort fun a b => key a ≤ key b

theorem sortByKey_perm (key : α → κ) (items : List α) : (sortByKey key items).Perm items :=
  perm_insertionSort _ _

@[simp] theorem mem_sortByKey {a : α} : a ∈ sortByKey key items ↔ a ∈ items :=
  (sortByKey_perm key items).mem_iff

/-- Items with different keys are sorted strictly. -/
theorem sortByKey_sorted (distinct : (items.map key).Nodup) :
    (sortByKey key items).Pairwise fun a b => key a < key b := by
  have hle : (sortByKey key items).Pairwise fun a b => key a ≤ key b :=
    pairwise_insertionSort (fun a b => key a ≤ key b) items
  have hne := ((sortByKey_perm key items).map key).nodup_iff.mpr distinct
  rw [List.Nodup, pairwise_map] at hne
  exact (hle.and hne).imp fun h => lt_of_le_of_ne h.1 h.2

/-- There is only one strictly sorted order. -/
theorem sortByKey_eq_of_perm {sorted : List α} (hperm : items.Perm sorted)
    (hsorted : sorted.Pairwise fun a b => key a < key b) : sortByKey key items = sorted := by
  have hdistinct : (items.map key).Nodup := by
    rw [(hperm.map key).nodup_iff, List.Nodup, pairwise_map]
    exact hsorted.imp ne_of_lt
  exact List.Perm.eq_of_pairwise (fun a b _ _ hab hba => absurd hab hba.asymm)
    (sortByKey_sorted hdistinct) hsorted ((sortByKey_perm key items).trans hperm)

/-- A `BTreeSet` in the order of its elements. `Finset.sort` is the same list; insertion
sort is the one that evaluates. -/
def sortedElements (set : Finset κ) : List κ :=
  Quot.lift (fun items : List κ => items.insertionSort (· ≤ ·))
    (fun items items' (h : items.Perm items') =>
      List.Perm.eq_of_pairwise (fun _ _ _ _ hle hge => le_antisymm hle hge)
        (pairwise_insertionSort _ items) (pairwise_insertionSort _ items')
        ((perm_insertionSort _ items).trans
          (h.trans (perm_insertionSort _ items').symm))) set.val

theorem coe_sortedElements (set : Finset κ) : (sortedElements set : Multiset κ) = set.val := by
  obtain ⟨items, _⟩ := set
  induction items using Quotient.inductionOn with
  | h items => exact Multiset.coe_eq_coe.mpr (perm_insertionSort _ items)

theorem length_sortedElements (set : Finset κ) : (sortedElements set).length = set.card := by
  rw [← Multiset.coe_card, coe_sortedElements]
  rfl

theorem sortedElements_injective : Function.Injective (sortedElements : Finset κ → List κ) := by
  intro a b hab
  apply Finset.val_injective
  rw [← coe_sortedElements a, ← coe_sortedElements b, hab]

/-- `items.windows(2).all(|pair| key(pair[0]) < key(pair[1]))`. -/
def increasing (key : α → κ) : List α → Bool
  | a :: b :: rest => decide (key a < key b) && increasing key (b :: rest)
  | _ => true

theorem increasing_iff : increasing key items = true ↔ items.Pairwise fun a b => key a < key b := by
  rw [← isChain_iff_pairwise]
  induction items with
  | nil => simp [increasing]
  | cons a rest ih =>
    cases rest with
    | nil => simp [increasing]
    | cons b rest =>
      rw [increasing, Bool.and_eq_true, decide_eq_true_eq, ih, isChain_cons_cons]

end TokenHoldem.Library
