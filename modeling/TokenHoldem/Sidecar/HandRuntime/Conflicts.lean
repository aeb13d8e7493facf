import TokenHoldem.Sidecar.HandRuntime.Calls
import TokenHoldem.Sidecar.HandRuntime.Play

/-!
# Conflicting actions

Two signed actions of one player for one turn are evidence of a fault. A peer that
holds such evidence stops the hand.

- `conflict_freezes`: from a state with known conflict on, no sequence of calls changes
  the betting, the log, the cards or the settlement.
-/

namespace TokenHoldem

open Library

variable {L : HandPrimitives} {input : HandInput} {trace effects : List (HandEffect L.ziffle)}
  {a b : ActiveHand L.ziffle}

/-- The hand after a sequence of calls. -/
def HandCommand.afterAll (L : HandPrimitives) (commands : List (HandCommand L.ziffle))
    (active : ActiveHand L.ziffle) : ActiveHand L.ziffle :=
  commands.foldl (fun active command => (command.after L active).active) active

/-- The betting, the log, the cards and the settlement are the same. -/
structure Frozen {Z : Ziffle} (a b : ActiveHand Z) : Prop where
  hand : b.hand = a.hand
  sequence : b.sequence = a.sequence
  committedActions : b.committedActions = a.committedActions
  actionTranscript : b.actionTranscript = a.actionTranscript
  publicCards : b.publicCards = a.publicCards
  settled : b.settled = a.settled

theorem Frozen.refl {Z : Ziffle} (a : ActiveHand Z) : Frozen a a := ⟨rfl, rfl, rfl, rfl, rfl, rfl⟩

theorem Frozen.trans {Z : Ziffle} {a b c : ActiveHand Z} (h : Frozen a b) (h' : Frozen b c) :
    Frozen a c where
  hand := h'.hand.trans h.hand
  sequence := h'.sequence.trans h.sequence
  committedActions := h'.committedActions.trans h.committedActions
  actionTranscript := h'.actionTranscript.trans h.actionTranscript
  publicCards := h'.publicCards.trans h.publicCards
  settled := h'.settled.trans h.settled

/-- Every move that commits, reveals or settles needs a hand without conflict, and no
move takes a conflict back. -/
theorem HandMove.frozen (move : HandMove L input trace a effects b)
    (conflict : a.actionConflict.isSome = true) : Frozen a b ∧ b.actionConflict.isSome = true := by
  have hnot : a.actionConflict ≠ none := fun hnone => by
    rw [hnone] at conflict
    exact nomatch conflict
  cases move with
  | aside change =>
    obtain ⟨_, _, _, _, _, _, _, rfl⟩ := change
    exact ⟨⟨rfl, rfl, rfl, rfl, rfl, rfl⟩, conflict⟩
  | conflicted => exact ⟨⟨rfl, rfl, rfl, rfl, rfl, rfl⟩, rfl⟩
  | decrypted _ free => exact absurd free hnot
  | started _ _ free => exact absurd free hnot
  | refused _ _ _ _ _ _ acceptable => exact absurd acceptable.free hnot
  | committed _ _ _ _ _ _ _ acceptable => exact absurd acceptable.free hnot
  | advanced _ _ _ _ _ _ _ _ _ _ _ _ acceptable => exact absurd acceptable.free hnot
  | stalled _ _ _ _ _ _ _ _ _ _ _ acceptable => exact absurd acceptable.free hnot
  | cardRevealed _ _ _ _ _ _ _ _ _ _ free => exact absurd free hnot
  | streetRevealed _ free => exact absurd free hnot
  | showdownRun _ _ _ _ free => exact absurd free hnot
  | showdownLost _ free => exact absurd free hnot
  | settled _ _ _ _ _ free => exact absurd free hnot
  | wedged _ _ free => exact absurd free hnot
  | _ => exact ⟨⟨rfl, rfl, rfl, rfl, rfl, rfl⟩, conflict⟩

theorem HandMoves.frozen (moves : HandMoves L input a trace b)
    (conflict : a.actionConflict.isSome = true) : Frozen a b ∧ b.actionConflict.isSome = true := by
  induction moves with
  | refl => exact ⟨.refl a, conflict⟩
  | snoc _ move ih =>
    obtain ⟨hfrozen, hconflict⟩ := move.frozen ih.2
    exact ⟨ih.1.trans hfrozen, hconflict⟩

/-- A hand in which a conflict is known stays as it is, whatever is called, and the
conflict stays known. -/
theorem conflict_freezes (a : ActiveHand L.ziffle) (conflict : a.actionConflict.isSome = true)
    (commands : List (HandCommand L.ziffle)) :
    Frozen a (HandCommand.afterAll L commands a) ∧
      (HandCommand.afterAll L commands a).actionConflict.isSome = true := by
  induction commands generalizing a with
  | nil => exact ⟨.refl a, conflict⟩
  | cons command rest ih =>
    obtain ⟨hfrozen, hconflict⟩ := (command.came a).moves.frozen conflict
    obtain ⟨hrest, hend⟩ := ih _ hconflict
    exact ⟨hfrozen.trans hrest, hend⟩

/-- The other player signs another action for the turn it has taken. -/
def HandTurn.equivocate (elapsed : Nat) (sequence : Nat) (action : PlayerAction) :
    HandTurn HandPrimitives.plain := fun active =>
  match active.committedActions[sequence]? with
  | none => .requestSafeLeave
  | some accepted =>
    match SignedHandAction.issue .plain active.scope sequence accepted.expectedPublicStateHash 2
        action 1000000 ⟨FixedBytes.ofNat 2⟩ (seatCertificate 1) with
    | .error _ => .requestSafeLeave
    | .ok signed => .publicMessage (seatExecution 0 elapsed) (some ⟨2⟩)
        (.actionCommitted active.scope sequence signed)

/-- The big blind checks, and then sends a fold for the same turn: neither a tick nor
the missing shares for the flop change the hand any more. -/
theorem conflict_freezes_flop :
    ∃ active : ActiveHand Ziffle.plain, active.actionConflict.isSome = true ∧
      active.pendingReveal.isSome = true ∧
      Frozen active (HandCommand.afterAll .plain
        ([HandTurn.share 9 5, .share 9 6, .share 9 7].map fun turn => turn active) active) := by
  have hplay : (playHand .plain (pairTable oneTwoLevel [chips 40, chips 40] 0) ()
      (seatExecution 0 0) (dealTurns ++ [.act 6 .call, .hearAction 7 1000007 .check,
        .equivocate 8 2 .fold])).any
      (fun s => s.active.actionConflict.isSome && s.active.pendingReveal.isSome) = true := by
    decide +kernel
  obtain ⟨s, -, hcheck⟩ := exists_handRun_of_play hplay
  rw [Bool.and_eq_true] at hcheck
  exact ⟨s.active, hcheck.1, hcheck.2, (conflict_freezes (L := .plain) s.active hcheck.1 _).1⟩

end TokenHoldem
