import TokenHoldem.Domain.Showdown

/-!
# Reachable hands

`Reach` collects the hands that `start` and any sequence of successful calls of
`act` and `settle_showdown` lead to, at any level that `start` accepts. Completed
hands are included: the engine does not stop at `Street::Complete`, because
`finish_uncontested` leaves `next_to_act` in place.
-/

namespace TokenHoldem

open Library HoldemHand Finset

variable {h h' : HoldemHand} {level : StakeLevel} {seats : List (PlayerId × Chips)} {dealer : Nat}
  {actions : List (PlayerId × PlayerAction)}

/-- The hands reached from `start` by successful calls. -/
inductive Reach (level : StakeLevel) (seats : List (PlayerId × Chips)) (dealer : Nat) :
    HoldemHand → Prop
  | start {h : HoldemHand} : start level seats dealer = .ok h →
      Reach level seats dealer h
  | act {h h' : HoldemHand} {p : PlayerId} {a : PlayerAction} {out : ActionOutcome} :
      Reach level seats dealer h → (act p a).run h = .ok out h' → Reach level seats dealer h'
  | settle {h h' : HoldemHand} {board : Board} {holeCards : HoleCards}
      {settlement : HoldemSettlement} : Reach level seats dealer h →
      (settleShowdown board holeCards).run h = .ok settlement h' → Reach level seats dealer h'

/-! ## Playing a list of actions -/

/-- A sequence of `act` calls, up to the first failure. -/
def playActions : List (PlayerId × PlayerAction) → HandM Unit
  | [] => pure ()
  | (player, action) :: rest => do
    let _ ← act player action
    playActions rest

/-- The hand after `start` and a list of actions that all succeed. -/
def HoldemHand.play (level : StakeLevel) (seats : List (PlayerId × Chips)) (dealer : Nat)
    (actions : List (PlayerId × PlayerAction)) : Option HoldemHand :=
  match start level seats dealer with
  | .error _ => none
  | .ok h =>
    match (playActions actions).run h with
    | .ok _ h' => some h'
    | .error _ _ => none

theorem Reach.playActions (hr : Reach level seats dealer h)
    (hrun : (playActions actions).run h = .ok () h') : Reach level seats dealer h' := by
  induction actions generalizing h with
  | nil =>
    cases hrun
    exact hr
  | cons step rest ih =>
    obtain ⟨_, h₁, hact, hrest⟩ := run_bind_eq_ok_iff.mp hrun
    exact ih (hr.act hact) hrest

theorem Reach.of_play (hp : play level seats dealer actions = some h) :
    Reach level seats dealer h := by
  unfold play at hp
  split at hp
  · cases hp
  · rename_i h₀ hstart
    split at hp
    · rename_i h' hrun
      cases hp
      exact (Reach.start hstart).playActions hrun
    · cases hp

/-- A property of the hand that a list of actions leads to. -/
theorem exists_reach_of_play (level : StakeLevel) (seats : List (PlayerId × Chips)) (dealer : Nat)
    (actions : List (PlayerId × PlayerAction)) (P : HoldemHand → Prop) [DecidablePred P]
    (hp : (play level seats dealer actions).any (fun h => P h) = true) :
    ∃ h, Reach level seats dealer h ∧ P h := by
  obtain ⟨h, hplay, hP⟩ := (Option.any_eq_true _ _).mp hp
  exact ⟨h, .of_play hplay, of_decide_eq_true hP⟩

/-- The player whose identifier spells `k`. -/
def player (k : Nat) : PlayerId := Identifier.ofNat k

/-- A card by its deck index, as `Card::from_deck_index` numbers them. -/
def deckCard (index : Fin 52) : Card where
  rank := index.val % 13 + 2
  suit := match index.val / 13 with
    | 0 => .clubs
    | 1 => .diamonds
    | 2 => .hearts
    | _ => .spades
  two_le := Nat.le_add_left _ _
  le_fourteen := deckRank_le _

/-- A board of five different ranks. -/
def dryBoard : Board := #v[deckCard 0, deckCard 15, deckCard 30, deckCard 46, deckCard 24]

/-- Pocket cards for players 1 to 4. -/
def pocketCards : HoleCards := fun p =>
  if p = player 1 then some (deckCard 1, deckCard 2)
  else if p = player 2 then some (deckCard 3, deckCard 4)
  else if p = player 3 then some (deckCard 5, deckCard 6)
  else if p = player 4 then some (deckCard 7, deckCard 8)
  else none

/-- Two players with a hundred chips each. -/
def headsUp : List (PlayerId × Chips) := [(player 1, chips 100), (player 2, chips 100)]

/-- The three stacks of the source's side-pot test. -/
def threeStacks : List (PlayerId × Chips) :=
  [(player 1, chips 40), (player 2, chips 100), (player 3, chips 200)]

end TokenHoldem
