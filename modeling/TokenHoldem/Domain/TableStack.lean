import TokenHoldem.Domain.Statistics
import TokenHoldem.Library.Fallible

/-!
# Table stacks

`TableStack` of `token-holdem-domain/src/table.rs`: the chips of a player at a table, and how
many of them were bought in the course of the game. `top_up` stores the new stack before it
adds up what was bought, so it can fail when half of it is done.

- `StackCall.Outcome` — the three things a call can do;
- `Balanced` — the stack is the buy-in, the top-ups and the results of the hands;
- `stack_balanced_iff` — it stays so, and failed calls change nothing, exactly as long as no
  top-up that is accepted makes the sum of the top-ups overflow.
-/

namespace TokenHoldem

open Library Chips

inductive BuyInError where
  | belowMinimum (minimum requested : Chips)
  | aboveMaximum (maximum requested : Chips)
  | exceedsOfficialTokens (available requested : Chips)
  | topUpOutsideHandBoundary
  | zeroTopUp
  | topUpExceedsMaximum (maximum resultingStack : Chips)
  | overflow
  | invalidResultingStack
deriving DecidableEq

/-- The part of `OfficialTokenSnapshot` that a buy-in is checked against. -/
structure OfficialTokenSnapshot where
  lifetimeTokens : Chips

inductive TablePhase where
  | betweenHands
  | handInProgress
  | closed
deriving DecidableEq

def StakeLevel.validateBuyIn (level : StakeLevel) (snapshot : OfficialTokenSnapshot)
    (requested : Chips) : Except BuyInError Unit := do
  ensure (level.minimumBuyIn ≤ requested) (.belowMinimum level.minimumBuyIn requested)
  ensure (requested ≤ level.maximumBuyIn) (.aboveMaximum level.maximumBuyIn requested)
  ensure (requested ≤ snapshot.lifetimeTokens)
    (.exceedsOfficialTokens snapshot.lifetimeTokens requested)

structure TableStack where
  current : Chips
  totalTopUps : Chips
deriving DecidableEq

namespace TableStack

/-- `TableStack::open`. -/
def opened (level : StakeLevel) (snapshot : OfficialTokenSnapshot) (buyIn : Chips) :
    Except BuyInError TableStack := do
  level.validateBuyIn snapshot buyIn
  return { current := buyIn, totalTopUps := .zero }

def topUp (level : StakeLevel) (phase : TablePhase) (amount : Chips) :
    EStateM BuyInError TableStack Unit := do
  let stack ← get
  if phase ≠ .betweenHands then throw .topUpOutsideHandBoundary else
  if amount = .zero then throw .zeroTopUp else
  let next ← orThrow .overflow (stack.current.checkedAdd amount)
  if level.maximumBuyIn < next then
    throw (.topUpExceedsMaximum level.maximumBuyIn next) else
  -- the stack is stored before the last check
  modify fun stack => { stack with current := next }
  let total ← orThrow .overflow (stack.totalTopUps.checkedAdd amount)
  modify fun stack => { stack with totalTopUps := total }

/-- `apply_hand_delta`, with an `i128` as an integer. -/
def applyHandDelta (delta : Int) : EStateM BuyInError TableStack Unit := do
  let stack ← get
  let next ← orThrow .overflow (checkedAddI128 stack.current.value delta)
  let next ← orThrow .invalidResultingStack (ofInt? next)
  modify fun stack => { stack with current := next }

end TableStack

/-- A call on a stack. -/
inductive StackCall where
  | topUp (level : StakeLevel) (phase : TablePhase) (amount : Chips)
  | applyHandDelta (delta : Int)

namespace StackCall

def program : StackCall → EStateM BuyInError TableStack Unit
  | topUp level phase amount => TableStack.topUp level phase amount
  | applyHandDelta delta => TableStack.applyHandDelta delta

/-- The result of a hand that the call brings to the stack. -/
def delta : StackCall → Int
  | topUp .. => 0
  | applyHandDelta delta => delta

/-- Not a top-up that passes every check while the sum of the top-ups does not fit. -/
def Fits (stack : TableStack) : StackCall → Prop
  | topUp level phase amount => phase = .betweenHands → amount ≠ .zero →
      stack.current.value + amount.value ≤ level.maximumBuyIn.value →
      stack.totalTopUps.value + amount.value < 2 ^ 64
  | applyHandDelta _ => True

/-- A top-up does not lead beyond the maximum of its level. -/
def Capped (after : TableStack) : StackCall → Prop
  | topUp level _ _ => after.current ≤ level.maximumBuyIn
  | applyHandDelta _ => True

/-- When the call fails, the stack is as before. -/
def Atomic (stack : TableStack) (call : StackCall) : Prop :=
  ∀ error after, call.program.run stack = .error error after → after = stack

end StackCall

/-- A stack, with the sum of the results that were applied to it. -/
structure StackHistory where
  stack : TableStack
  applied : Int

namespace StackHistory

def call (history : StackHistory) (call : StackCall) : StackHistory :=
  match call.program.run history.stack with
  | .ok _ stack => ⟨stack, history.applied + call.delta⟩
  | .error _ stack => ⟨stack, history.applied⟩

def calls (history : StackHistory) (calls : List StackCall) : StackHistory :=
  calls.foldl call history

/-- The stack is the buy-in with the top-ups and the results of the hands. -/
def Balanced (buyIn : Chips) (history : StackHistory) : Prop :=
  (history.stack.current.value : Int) =
    buyIn.value + history.stack.totalTopUps.value + history.applied

/-- Every call of a history fits the stack it meets. -/
def AllFit (history : StackHistory) : List StackCall → Prop
  | [] => True
  | call :: calls => call.Fits history.stack ∧ (history.call call).AllFit calls

end StackHistory

/-! ## One call -/

namespace StackCall

variable {stack : TableStack}

/-- What a call does: it succeeds and balances, it fails and changes nothing, or it is a top-up
that does not fit and fails with the chips on the stack. -/
inductive Outcome (stack : TableStack) (call : StackCall) : Prop
  | succeeded (after : TableStack) (run : call.program.run stack = .ok () after)
      (fits : call.Fits stack) (capped : call.Capped after)
      (balance : (after.current.value : Int) - after.totalTopUps.value =
        stack.current.value - stack.totalTopUps.value + call.delta)
  | failed (error : BuyInError) (run : call.program.run stack = .error error stack)
      (fits : call.Fits stack)
  | torn (next : Chips) (more : stack.current.value < next.value) (unfit : ¬ call.Fits stack)
      (run : call.program.run stack = .error .overflow { stack with current := next })

theorem outcome_topUp (stack : TableStack) (level : StakeLevel) (phase : TablePhase)
    (amount : Chips) : (topUp level phase amount).Outcome stack := by
  by_cases hphase : phase = .betweenHands
  swap
  · exact .failed .topUpOutsideHandBoundary (by simp [program, TableStack.topUp, hphase])
      fun h => absurd h hphase
  by_cases hamount : amount = .zero
  · exact .failed .zeroTopUp (by simp [program, TableStack.topUp, hphase, hamount])
      fun _ h => absurd hamount h
  cases hnext : stack.current.checkedAdd amount with
  | none =>
    refine .failed .overflow (by simp [program, TableStack.topUp, hphase, hamount, hnext]) ?_
    intro _ _ hmaximum
    have := checkedAdd_eq_none.mp hnext
    have := level.maximumBuyIn.lt
    omega
  | some next =>
    have hvalue := checkedAdd_eq_some.mp hnext
    by_cases hmaximum : level.maximumBuyIn < next
    · refine .failed (.topUpExceedsMaximum level.maximumBuyIn next)
        (by simp [program, TableStack.topUp, hphase, hamount, hnext, hmaximum]) ?_
      intro _ _ hle
      exact absurd (le_iff_value.mpr (hvalue ▸ hle)) (not_le.mpr hmaximum)
    cases htotal : stack.totalTopUps.checkedAdd amount with
    | none =>
      -- both checks of the amount have passed, and the new stack is stored
      have hoverflow := checkedAdd_eq_none.mp htotal
      have hpositive : 0 < amount.value := Nat.pos_of_ne_zero fun h => hamount (ext h)
      refine .torn next (by omega) (fun hfits => ?_)
        (by simp [program, TableStack.topUp, hphase, hamount, hnext, hmaximum, htotal])
      exact absurd (hfits hphase hamount (hvalue ▸ not_lt.mp hmaximum)) (Nat.not_lt.mpr hoverflow)
    | some total =>
      have hsum := checkedAdd_eq_some.mp htotal
      refine .succeeded ⟨next, total⟩
        (by simp [program, TableStack.topUp, hphase, hamount, hnext, hmaximum, htotal])
        (fun _ _ _ => hsum ▸ total.lt) (not_lt.mp hmaximum) ?_
      simp only [delta]
      omega

theorem outcome_applyHandDelta (stack : TableStack) (delta : Int) :
    (applyHandDelta delta).Outcome stack := by
  cases hsum : checkedAddI128 stack.current.value delta with
  | none =>
    exact .failed .overflow (by simp [program, TableStack.applyHandDelta, hsum]) trivial
  | some sum =>
    cases hnext : ofInt? sum with
    | none =>
      exact .failed .invalidResultingStack
        (by simp [program, TableStack.applyHandDelta, hsum, hnext]) trivial
    | some next =>
      refine .succeeded { stack with current := next }
        (by simp [program, TableStack.applyHandDelta, hsum, hnext]) trivial trivial ?_
      obtain ⟨hnonneg, -, hvalue⟩ := PlayerStatistics.ofInt?_eq_some.mp hnext
      unfold checkedAddI128 at hsum
      split at hsum
      · cases hsum
        simp only [hvalue, Int.toNat_of_nonneg hnonneg, StackCall.delta]
        omega
      · contradiction

theorem outcome (stack : TableStack) : ∀ call : StackCall, call.Outcome stack
  | topUp level phase amount => outcome_topUp stack level phase amount
  | applyHandDelta delta => outcome_applyHandDelta stack delta

end StackCall

/-! ## Histories -/

namespace StackHistory

variable {buyIn : Chips} {history : StackHistory}

/-- A call balances and is atomic exactly if it fits. -/
theorem call_balanced_iff (hbalanced : history.Balanced buyIn) (next : StackCall) :
    ((history.call next).Balanced buyIn ∧ next.Atomic history.stack) ↔ next.Fits history.stack := by
  unfold Balanced at hbalanced
  rcases next.outcome history.stack with
    ⟨after, hrun, hfits, -, hbalance⟩ | ⟨error, hrun, hfits⟩ | ⟨more, hmore, hunfit, hrun⟩ <;>
  simp only [Balanced, StackCall.Atomic, StackHistory.call, hrun]
  · exact iff_of_true ⟨by omega, nofun⟩ hfits
  · refine iff_of_true ⟨hbalanced, fun _ _ herror => ?_⟩ hfits
    cases herror
    rfl
  · refine iff_of_false (fun h => ?_) hunfit
    have := congrArg (·.current.value) (h.2 _ _ rfl)
    dsimp only at this
    omega

theorem calls_balanced (hbalanced : history.Balanced buyIn) {calls : List StackCall}
    (hfits : history.AllFit calls) : (history.calls calls).Balanced buyIn := by
  induction calls generalizing history with
  | nil => exact hbalanced
  | cons call calls ih => exact ih ((call_balanced_iff hbalanced call).mpr hfits.1).1 hfits.2

/-- After `open`, in every history whose top-ups fit, the stack is the buy-in with the top-ups
and the applied results, and no top-up that succeeds leads beyond the maximum of its level. The
next call keeps this, and changes nothing if it fails, exactly if it fits too. -/
theorem stack_balanced_iff {level : StakeLevel} {snapshot : OfficialTokenSnapshot}
    {stack : TableStack} (hopened : TableStack.opened level snapshot buyIn = .ok stack)
    (past : List StackCall) (hfits : AllFit ⟨stack, 0⟩ past) :
    (calls ⟨stack, 0⟩ past).Balanced buyIn ∧
      (∀ next : StackCall,
        (((calls ⟨stack, 0⟩ past).call next).Balanced buyIn ∧
          next.Atomic (calls ⟨stack, 0⟩ past).stack) ↔ next.Fits (calls ⟨stack, 0⟩ past).stack) ∧
      ∀ (next : StackCall) (after : TableStack),
        next.program.run (calls ⟨stack, 0⟩ past).stack = .ok () after → next.Capped after := by
  have hstack : stack = ⟨buyIn, .zero⟩ := by
    obtain ⟨-, h⟩ := unit_bind_eq_ok.mp hopened
    cases h
    rfl
  have hbalanced : (calls ⟨stack, 0⟩ past).Balanced buyIn := by
    refine calls_balanced ?_ hfits
    simp [Balanced, hstack]
  refine ⟨hbalanced, call_balanced_iff hbalanced, fun next after hrun => ?_⟩
  rcases next.outcome (calls ⟨stack, 0⟩ past).stack with
    ⟨_, hrun', -, hcapped, -⟩ | ⟨_, hrun', -⟩ | ⟨_, -, -, hrun'⟩ <;>
  cases hrun.symm.trans hrun'
  exact hcapped

/-- A level without an upper limit, as it can be decoded. -/
def unlimitedLevel : StakeLevel := { oneTwoLevel.toStakeLevel with
  maximumBuyIn := ⟨18446744073709551615, by decide⟩ }

/-- All chips that fit are bought, lost, and a few are bought again. -/
def reBuying : List StackCall :=
  [.topUp unlimitedLevel .betweenHands ⟨18446744073709551575, by decide⟩,
    .applyHandDelta (-18446744073709551615)]

theorem stack_balanced_iff_bought :
    (calls ⟨⟨chips 40, .zero⟩, 0⟩ (reBuying.take 1)).Balanced (chips 40) ∧
      ((calls ⟨⟨chips 40, .zero⟩, 0⟩ (reBuying.take 1)).call
        (.applyHandDelta (-1))).Balanced (chips 40) := by
  have h := @stack_balanced_iff (chips 40) unlimitedLevel ⟨chips 40⟩ ⟨chips 40, .zero⟩
    (by decide +kernel) (reBuying.take 1) ⟨fun _ _ _ => by decide +kernel, trivial⟩
  exact ⟨h.1, ((h.2.1 (.applyHandDelta (-1))).mpr trivial).1⟩

/-- The sum of the top-ups does not fit: the call fails, and the chips are on the stack. -/
theorem failed_topUp_pays :
    (TableStack.topUp unlimitedLevel .betweenHands (chips 50)).run
        (calls ⟨⟨chips 40, .zero⟩, 0⟩ reBuying).stack =
      .error .overflow ⟨chips 50, ⟨18446744073709551575, by decide⟩⟩ ∧
    (calls ⟨⟨chips 40, .zero⟩, 0⟩ reBuying).stack.current = .zero := by
  decide +kernel

end StackHistory

end TokenHoldem
