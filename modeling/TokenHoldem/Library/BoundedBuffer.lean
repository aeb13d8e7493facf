import Mathlib.Data.List.Basic

/-!
# Buffers of bounded capacity

A buffer takes an item to its end when it is new and there is room, and drops it otherwise.
Once it is full nothing enters any more, so what it holds after some items are its old
contents and the first of the new ones.

- `foldl_push` — the contents after some items;
- `filter_foldl_push_iff` — when the items outside a set leave no trace among those in it.
-/

namespace TokenHoldem.Library

open List

variable {α : Type*} [DecidableEq α] {seen seen' : List α}

/-- A new item goes to the end while there is room. -/
def push (capacity : Nat) (buffer : List α) (item : α) : List α :=
  if item ∈ buffer then buffer
  else if buffer.length < capacity then buffer ++ [item] else buffer

/-- The items that have not been seen, each at its first occurrence. -/
def news (seen : List α) : List α → List α
  | [] => []
  | item :: items =>
    if item ∈ seen then news seen items else item :: news (seen ++ [item]) items

/-- A buffer takes the first of the new items. -/
theorem foldl_push (capacity : Nat) (buffer items : List α) : items.foldl (push capacity) buffer =
      buffer ++ (news buffer items).take (capacity - buffer.length) := by
  induction items generalizing buffer with
  | nil => simp [news]
  | cons item items ih =>
    rw [foldl_cons, push, news]
    by_cases hseen : item ∈ buffer
    · rw [if_pos hseen, if_pos hseen, ih]
    · rw [if_neg hseen, if_neg hseen]
      by_cases hroom : buffer.length < capacity
      · obtain ⟨free, hfree⟩ := Nat.exists_eq_add_of_lt hroom
        have hrest : capacity - (buffer ++ [item]).length = free := by
          rw [length_append, length_singleton]
          omega
        have hthis : capacity - buffer.length = free + 1 := by omega
        rw [if_pos hroom, ih, hrest, hthis, take_succ_cons, append_assoc]
        rfl
      · have hfull : capacity - buffer.length = 0 := by omega
        rw [if_neg hroom, ih, hfull, take_zero, take_zero]

variable {r : α → Prop} [DecidablePred r]

/-- Whether an item of a set is new does not depend on the items outside it. -/
theorem news_filter (hsame : ∀ item, r item → (item ∈ seen' ↔ item ∈ seen)) (items : List α) :
    news seen' (items.filter r) = (news seen items).filter r := by
  induction items generalizing seen seen' with
  | nil => rfl
  | cons item items ih =>
    by_cases hitem : r item
    · rw [filter_cons_of_pos (by simpa using hitem), news, news]
      by_cases hseen : item ∈ seen
      · rw [if_pos hseen, if_pos ((hsame item hitem).mpr hseen), ih hsame]
      · rw [if_neg hseen, if_neg fun h => hseen ((hsame item hitem).mp h),
          filter_cons_of_pos (by simpa using hitem), ih]
        intro other hother
        simp [hsame other hother]
    · rw [filter_cons_of_neg (by simpa using hitem), news]
      by_cases hseen : item ∈ seen
      · rw [if_pos hseen, ih hsame]
      · rw [if_neg hseen, filter_cons_of_neg (by simpa using hitem), ih]
        intro other hother
        have hne : other ≠ item := fun h => hitem (h ▸ hother)
        simp [hsame other hother, hne]

omit [DecidableEq α] in
/-- Taking the first items of a set is taking the set's items among the first when none of
them comes later, or all of the first are in the set. -/
theorem filter_take_eq_take_filter_iff (items : List α) (k : Nat) :
    (items.take k).filter r = (items.filter r).take k ↔
      (∀ item ∈ items.drop k, ¬ r item) ∨ ∀ item ∈ items.take k, r item := by
  have hsplit : items.filter r = (items.take k).filter r ++ (items.drop k).filter r := by
    rw [← filter_append, take_append_drop]
  have hlength : ((items.take k).filter r).length ≤ k :=
    Nat.le_trans (length_filter_le _ _) (length_take_le _ _)
  rw [hsplit, take_append, take_of_length_le hlength, self_eq_append_right,
    take_eq_nil_iff, filter_eq_nil_iff]
  constructor
  · rintro (hfull | hnone)
    · -- `k` items of the set among the first `k`
      right
      have hall : (items.take k).filter r = items.take k := by
        refine filter_sublist.eq_of_length_le ?_
        exact Nat.le_trans (length_take_le _ _) (by omega)
      intro item hitem
      rw [← hall] at hitem
      simpa using (mem_filter.mp hitem).2
    · exact .inl fun item hitem => by simpa using hnone item hitem
  · rintro (hnone | hall)
    · exact .inr fun item hitem => by simpa using hnone item hitem
    · have hkept : (items.take k).filter r = items.take k :=
        filter_eq_self.mpr fun item hitem => by simpa using hall item hitem
      rw [hkept, length_take]
      by_cases hlong : k ≤ items.length
      · left
        omega
      · right
        rw [drop_of_length_le (by omega)]
        nofun

/-- The items outside a set leave no trace among those in it when the first that have room
are all in the set, or no later one is. -/
theorem filter_foldl_push_iff (capacity : Nat) (buffer items : List α) :
    (items.foldl (push capacity) buffer).filter r =
        ((items.filter r).foldl (push capacity) buffer).filter r ↔
      (∀ item ∈ (news buffer items).drop (capacity - buffer.length), ¬ r item) ∨
        ∀ item ∈ (news buffer items).take (capacity - buffer.length), r item := by
  have hin : ((news buffer (items.filter r)).take (capacity - buffer.length)).filter r =
      (news buffer (items.filter r)).take (capacity - buffer.length) := by
    rw [@news_filter _ _ buffer buffer r _ fun _ _ => Iff.rfl]
    refine filter_eq_self.mpr fun item hitem => ?_
    exact (mem_filter.mp (mem_of_mem_take hitem)).2
  rw [foldl_push, foldl_push, filter_append, filter_append, append_cancel_left_eq,
    hin, news_filter fun _ _ => Iff.rfl, filter_take_eq_take_filter_iff]

end TokenHoldem.Library
