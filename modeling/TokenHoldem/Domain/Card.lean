import Mathlib.Data.List.Dedup
import Mathlib.Data.List.Sort
import Mathlib.Data.Prod.Lex
import Mathlib.Order.Nat
import Mathlib.Data.List.Lex

/-!
# Cards and hand ranks

The first part of `token-holdem-domain/src/holdem.rs`: cards, hand categories
and the seven-card evaluator. A card carries the range of its rank, which both
`Card::new` and `Card::from_deck_index` establish.
-/

namespace TokenHoldem

inductive Suit where
  | clubs
  | diamonds
  | hearts
  | spades
deriving DecidableEq, Repr

structure Card where
  rank : Nat
  suit : Suit
  two_le : 2 ≤ rank
  le_fourteen : rank ≤ 14
deriving DecidableEq

instance : Inhabited Card := ⟨⟨2, .clubs, by decide, by decide⟩⟩

theorem deckRank_le (index : Nat) : index % 13 + 2 ≤ 14 := by omega

/-- `Card::from_deck_index`; `none` is its error. -/
def Card.fromDeckIndex (index : UInt8) : Option Card :=
  if index.toNat < 52 then
    some
      { rank := index.toNat % 13 + 2
        suit := match index.toNat / 13 with
          | 0 => .clubs
          | 1 => .diamonds
          | 2 => .hearts
          | _ => .spades
        two_le := Nat.le_add_left _ _
        le_fourteen := deckRank_le _ }
  else none

inductive HandCategory where
  | highCard
  | onePair
  | twoPair
  | threeOfAKind
  | straight
  | flush
  | fullHouse
  | fourOfAKind
  | straightFlush
deriving DecidableEq, Repr

/-- The position of a category in the source's enumeration, which is the order
`#[derive(Ord)]` gives it. -/
def HandCategory.tag : HandCategory → Nat
  | .highCard => 0
  | .onePair => 1
  | .twoPair => 2
  | .threeOfAKind => 3
  | .straight => 4
  | .flush => 5
  | .fullHouse => 6
  | .fourOfAKind => 7
  | .straightFlush => 8

theorem HandCategory.tag_injective : Function.Injective HandCategory.tag := by
  intro a b h
  cases a <;> cases b <;> simp_all [HandCategory.tag]

structure HandRank where
  category : HandCategory
  kickers : List Nat

namespace HandRank

/-- `#[derive(Ord)]` compares the category, then the kickers in order. -/
def key (r : HandRank) : ℕ ×ₗ List ℕ := toLex (r.category.tag, r.kickers)

theorem key_injective : Function.Injective key := by
  rintro ⟨a, k⟩ ⟨b, l⟩ h
  have h : (a.tag, k) = (b.tag, l) := toLex.injective h
  simp only [Prod.mk.injEq] at h
  rw [HandCategory.tag_injective h.1, h.2]

instance : LinearOrder HandRank := LinearOrder.lift' key key_injective

end HandRank

/-- `rank`: the values fill the first kicker slots, the rest are zero. -/
def rank (category : HandCategory) (values : List Nat) : HandRank :=
  ⟨category, values ++ List.replicate (5 - values.length) 0⟩

/-- `straight_high`, on ranks sorted upwards without repetition. -/
def straightHigh (sortedUnique : List Nat) : Option Nat :=
  if sortedUnique.length ≠ 5 then none
  else if sortedUnique = [2, 3, 4, 5, 14] then some 5
  else if sortedUnique.getD 4 0 - sortedUnique.getD 0 0 = 4 then some (sortedUnique.getD 4 0)
  else none

variable (cards : List Card)

/-- The ranks of `cards` as `(count, rank)` pairs, largest pair first. -/
def rankGroups : List (Nat × Nat) :=
  let ranks := cards.map (·.rank)
  (ranks.dedup.map fun r => (ranks.count r, r)).insertionSort
    fun a b => b.1 < a.1 ∨ (b.1 = a.1 ∧ b.2 ≤ a.2)

/-- `evaluate_five`. The branches stand in the order of the source: a straight
flush is looked for before the ranks are grouped, a flush and a straight after
the full house. -/
def evaluateFive : HandRank :=
  let flush := cards.all fun card => card.suit = (cards.headD default).suit
  let ranks := cards.map (·.rank)
  let straight := straightHigh (ranks.dedup.insertionSort (· ≤ ·))
  match flush, straight with
  | true, some high => rank .straightFlush [high]
  | _, _ =>
    let groups := rankGroups cards
    let group := fun k => groups.getD k (0, 0)
    let descending := ranks.insertionSort (· ≥ ·)
    let kickers := ((groups.filter (·.1 = 1)).map (·.2)).insertionSort (· ≥ ·)
    let pairs := (groups.filter (·.1 = 2)).map (·.2)
    if (group 0).1 = 4 then rank .fourOfAKind [(group 0).2, (group 1).2]
    else if (group 0).1 = 3 ∧ (group 1).1 = 2 then rank .fullHouse [(group 0).2, (group 1).2]
    else if flush then rank .flush descending
    else match straight with
      | some high => rank .straight [high]
      | none =>
        if (group 0).1 = 3 then
          rank .threeOfAKind [(group 0).2, kickers.getD 0 0, kickers.getD 1 0]
        else if pairs.length = 2 then
          rank .twoPair
            [max (pairs.getD 0 0) (pairs.getD 1 0), min (pairs.getD 0 0) (pairs.getD 1 0),
            kickers.getD 0 0]
        else if pairs.length = 1 then
          rank .onePair [pairs.getD 0 0, kickers.getD 0 0, kickers.getD 1 0, kickers.getD 2 0]
        else rank .highCard descending

/-- The index tuples of the five nested loops of `evaluate_seven`. -/
def fiveOfSeven : List (List Nat) :=
  let upTo := fun lo hi => List.range' lo (hi - lo)
  (upTo 0 3).flatMap fun first => (upTo (first + 1) 4).flatMap fun second =>
    (upTo (second + 1) 5).flatMap fun third => (upTo (third + 1) 6).flatMap fun fourth =>
      (upTo (fourth + 1) 7).map fun fifth => [first, second, third, fourth, fifth]

/-- `evaluate_seven`: the best of the five-card choices. -/
def evaluateSeven : HandRank :=
  fiveOfSeven.foldl
    (fun best indices => max best (evaluateFive (indices.map fun i => cards.getD i default)))
    ⟨.highCard, List.replicate 5 0⟩

end TokenHoldem
