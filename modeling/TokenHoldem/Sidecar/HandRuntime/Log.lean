import TokenHoldem.Sidecar.HandRuntime.Conflicts

/-!
# The record of a hand

Whatever messages reach a peer, and in whatever order:

- `accepted_stays`: what it has accepted in a hand is neither dropped nor replaced;
- `betting_replays_log`: its committed actions are numbered without a gap, the action
  transcript has them in this order, and until the showdown the betting state is what
  the engine makes of them.
-/

namespace TokenHoldem

open Library HoldemHand List

variable {L : HandPrimitives} {input : HandInput} {trace effects : List (HandEffect L.ziffle)}
  {a b : ActiveHand L.ziffle}

theorem getElem?_insert_of_fresh {κ β : Type} [Ord κ] [Std.TransOrd κ] [Std.LawfulEqOrd κ]
    [DecidableEq κ] {m : Std.TreeMap κ β} {k l : κ} {v w : β} (fresh : m[k]? = none)
    (h : m[l]? = some w) : (m.insert k v)[l]? = some w := by
  rw [getElem?_insert_ite, if_neg, h]
  rintro rfl
  exact nomatch fresh.symm.trans h

/-! ## What is accepted stays -/

/-- Something that a peer has accepted in the course of a hand. -/
inductive HandFact (Z : Ziffle) where
  | key (seat : UInt8) (announcement : KeyAnnouncement)
  | verified (keys : List Z.VerifiedPublicKey)
  | shuffle (seat : UInt8) (packet : ShufflePacket)
  | share (cardIndex seat : UInt8) (packet : RevealSharePacket)
  | card (cardIndex : UInt8) (card : Card)
  | holeCards (cards : Card × Card)
  | ready (seat : UInt8)
  | action (sequence : Nat) (action : SignedHandAction)
  | settled

def ActiveHand.accepted {Z : Ziffle} (a : ActiveHand Z) : Set (HandFact Z)
  | .key seat announcement => a.announcements[seat]? = some announcement
  | .verified keys => a.verifiedKeys = some keys
  | .shuffle seat packet => a.shufflePackets[seat]? = some packet
  | .share cardIndex seat packet => (a.publicShares.of cardIndex)[seat]? = some packet
  | .card cardIndex card => a.publicCards[cardIndex]? = some card
  | .holeCards cards => a.localHoleCards = some cards
  | .ready seat => seat ∈ a.readySeats
  | .action sequence action => a.committedActions[sequence]? = some action
  | .settled => a.settled = true

theorem HandMove.accepted (move : HandMove L input trace a effects b) :
    a.accepted ⊆ b.accepted := by
  intro fact h
  cases move with
  | aside change =>
    obtain ⟨_, _, _, _, _, _, _, rfl⟩ := change
    cases fact <;> exact h
  | announced seat announcement fresh =>
    cases fact with
    | key => exact getElem?_insert_of_fresh fresh h
    | _ => exact h
  | aggregated keys aggregate transcript first =>
    cases fact with
    | verified => exact nomatch first.symm.trans h
    | _ => exact h
  | shuffleAdded seat packet fresh =>
    cases fact with
    | shuffle => exact getElem?_insert_of_fresh fresh h
    | _ => exact h
  | decrypted cards free first | started cards hand free first =>
    cases fact with
    | holeCards => exact nomatch first.symm.trans h
    | _ => exact h
  | readyOwn | readyHeard =>
    cases fact with
    | ready => exact Finset.mem_insert_of_mem h
    | _ => exact h
  | shared shares grown =>
    cases fact with
    | share => exact grown _ _ _ h
    | _ => exact h
  | committed now origin sequence action hand hand' outcome acceptable =>
    cases fact with
    | action => exact getElem?_insert_of_fresh acceptable.fresh h
    | _ => exact h
  | advanced _ _ _ _ _ _ _ _ _ _ _ _ acceptable _ _ _ contributes
  | stalled _ _ _ _ _ _ _ _ _ _ _ acceptable _ _ _ contributes =>
    cases fact with
    | action => exact getElem?_insert_of_fresh acceptable.fresh h
    | share => exact contributes.grows _ _ _ h
    | _ => exact h
  | cardRevealed _ _ _ _ _ _ _ _ _ _ _ _ _ _ hidden =>
    cases fact with
    | card => exact getElem?_insert_of_fresh hidden h
    | _ => exact h
  | settled | wedged =>
    cases fact with
    | settled => rfl
    | _ => exact h
  | _ => cases fact <;> exact h

/-- Nothing that a peer has accepted is lost, whatever is called. -/
theorem accepted_stays (a : ActiveHand L.ziffle) (commands : List (HandCommand L.ziffle)) :
    a.accepted ⊆ (HandCommand.afterAll L commands a).accepted := by
  induction commands generalizing a with
  | nil => exact subset_rfl
  | cons command rest ih =>
    have hmoves : ∀ {history b}, HandMoves L command.input a history b →
        a.accepted ⊆ b.accepted := by
      intro history b moves
      induction moves with
      | refl => exact subset_rfl
      | snoc _ move ih => exact ih.trans move.accepted
    exact (hmoves (command.came a).moves).trans (ih _)

/-! ## The log -/

/-- The committed actions in the order of their numbers. -/
def ActiveHand.log {Z : Ziffle} (a : ActiveHand Z) : List SignedHandAction :=
  (range' 1 a.sequence).filterMap (a.committedActions[·]?)

/-- What the engine makes of a sequence of actions, all of which it has to accept. -/
def replay (h : HoldemHand) (log : List SignedHandAction) : Option HoldemHand :=
  log.foldlM (fun h action => match (act action.playerId action.action).run h with
    | .ok _ h' => some h'
    | .error .. => none) h

variable {history : List (HandEffect L.ziffle)} {action : SignedHandAction}
  {outcome : ActionOutcome}
  {first hand hand' : HoldemHand} {sequence : Nat}

theorem replay_snoc {log : List SignedHandAction} (hlog : replay first log = some hand)
    (acted : (act action.playerId action.action).run hand = .ok outcome hand') :
    replay first (log ++ [action]) = some hand' := by
  rw [replay, foldlM_append, ← replay, hlog]
  simp [acted]

/-- The betting state is the result of the log. -/
def ActiveHand.Replays {Z : Ziffle} (a : ActiveHand Z) (hand : HoldemHand) : Prop :=
  ∃ h, HoldemHand.start a.table.level (a.table.players.zip a.table.buyIns) a.dealerIndex = .ok h ∧
    replay h a.log = some hand

/-- The log of a hand in which no showdown has been run is complete. -/
structure Logged (L : HandPrimitives) (history : List (HandEffect L.ziffle))
    (a : ActiveHand L.ziffle) : Prop where
  numbered : ∀ n, (a.committedActions[n]?).isSome = true ↔ 1 ≤ n ∧ n ≤ a.sequence
  fed : a.actionTranscript = a.log.flatMap fun action => writeBytes (L.cborAction action)
  bound : ∀ n action, a.committedActions[n]? = some action → ∃ before origin,
    .committed before origin n action ∈ history ∧
      before.publicStateHash L.toPrimitives = .ok action.expectedPublicStateHash
  undealt : a.hand = none → a.sequence = 0
  dealt : a.hand.isSome = true → a.localHoleCards.isSome = true
  called : ∀ hand ∈ a.hand,
    Called a.table.level (a.table.players.zip a.table.buyIns) a.dealerIndex hand
  replays : ((a.table.players.zip a.table.buyIns).map (·.2.value)).sum < 2 ^ 64 →
    (∀ before, .showdown before ∉ history) → ∀ hand ∈ a.hand, hand.street ≠ .complete →
    a.Replays hand

theorem log_commitTo (next : sequence = a.sequence + 1) (now : UInt64) :
    (a.commitTo now sequence action hand).log = a.log ++ [action] := by
  subst next
  have hkept : ∀ m ∈ range' 1 a.sequence,
      (a.committedActions.insert (a.sequence + 1) action)[m]? = a.committedActions[m]? := by
    intro m hm
    rw [mem_range'_1] at hm
    rw [getElem?_insert_ite, if_neg (by omega)]
  simp only [ActiveHand.log, ActiveHand.commitTo, range'_1_concat, filterMap_append]
  rw [filterMap_congr hkept]
  simp [Nat.add_comm, getElem?_insert_ite]

/-- An action that is refused while the hand goes on leaves the betting state as it was. -/
theorem act_refused {level : StakeLevel} {seats : List (PlayerId × Chips)} {dealer : Nat}
    {p : PlayerId} {action : PlayerAction} {e : HoldemError}
    (called : Called level seats dealer hand)
    (fits : (seats.map (·.2.value)).sum < 2 ^ 64) (acted : (act p action).run hand = .error e hand')
    (unended : hand'.street ≠ .complete) : hand' = hand := by
  rcases hand.street.betting_or with hs | hs | hs
  · have hp := called.onCourse.betting hs
    have hresult := hp.act_run hs p action
    rw [acted] at hresult
    cases hresult with
    | refused => rfl
    | overflown next _ applied winner exceeds =>
      -- a pot that the winner's stack cannot hold is larger than all stacks together
      have hi := hp.next_lt _ next
      have he := applyAction_eq_ok applied
      rw [← called.seatedAt.roster, sum_roster_eq, ← (he.acted hi).sameRoster.total_startingStack]
        at fits
      have := (hp.of_effect hi he).pot_fits winner fits
      omega
  · rw [act_of_next_eq_none (called.onCourse.showdown hs)] at acted
    cases acted
    rfl
  · have hends := act_street_complete p action hs
    rw [Ends, acted] at hends
    exact absurd hends unended

theorem Logged.commit {origin : ActionOrigin} (h : Logged L history a)
    (acceptable : Acceptable L input trace a origin sequence action) (betting : a.hand = some hand)
    (acted : (act action.playerId action.action).run hand = .ok outcome hand')
    (recorded : .committed a origin sequence action ∈ history)
    (called : Called a.table.level (a.table.players.zip a.table.buyIns) a.dealerIndex hand')
    (now : UInt64) : Logged L history (a.commitTo now sequence action hand') where
  numbered n := by
    have hn := h.numbered n
    have hnext := acceptable.next
    change ((a.committedActions.insert sequence action)[n]?).isSome = true ↔ 1 ≤ n ∧ n ≤ sequence
    rw [getElem?_insert_ite]
    split
    · simp only [Option.isSome_some, true_iff]
      omega
    · rw [hn]
      omega
  fed := by
    rw [log_commitTo acceptable.next, flatMap_append, ← h.fed, flatMap_singleton]
    rfl
  bound n other hget := by
    change (a.committedActions.insert sequence action)[n]? = some other at hget
    rw [getElem?_insert_ite] at hget
    split at hget
    · rename_i heq
      subst heq
      cases hget
      exact ⟨a, origin, recorded, acceptable.bound⟩
    · exact h.bound n other hget
  undealt := nofun
  dealt _ := h.dealt (betting ▸ rfl)
  called := by
    rintro _ ⟨⟩
    exact called
  replays := by
    rintro fits quiet _ ⟨⟩ unended
    have hopen : hand.street ≠ .complete := fun hs => by
      have hends := act_street_complete action.playerId action.action hs
      rw [Ends, acted] at hends
      exact unended hends
    obtain ⟨start, begun, hlog⟩ := h.replays fits quiet hand betting hopen
    refine ⟨start, begun, ?_⟩
    rw [log_commitTo acceptable.next]
    exact replay_snoc hlog acted

theorem Logged.step (h : Logged L history a) (move : HandMove L input trace a effects b) :
    Logged L (history ++ effects) b := by
  have called := move.called h.called
  have h : Logged L (history ++ effects) a := { h with
    bound := fun n action hget => by
      obtain ⟨before, origin, hmem, hash⟩ := h.bound n action hget
      exact ⟨before, origin, mem_append_left _ hmem, hash⟩
    replays := fun fits quiet => h.replays fits fun before hmem =>
      quiet before (mem_append_left _ hmem) }
  cases move with
  | aside change =>
    obtain ⟨_, _, _, _, _, _, _, rfl⟩ := change
    exact { h with }
  | decrypted => exact { h with dealt := fun _ => rfl }
  | started cards hand free first dealt keys deck begun =>
    have hnone : a.hand = none := by
      rw [← Option.not_isSome_iff_eq_none]
      intro hsome
      simpa [first] using h.dealt hsome
    refine { h with undealt := by simp, dealt := fun _ => rfl, called, replays := ?_ }
    rintro _ _ _ ⟨⟩ -
    exact ⟨hand, begun, by simp [replay, ActiveHand.log, h.undealt hnone]⟩
  | refused origin sequence action hand hand' error acceptable betting acted =>
    refine { h with
      undealt := by simp, dealt := fun _ => h.dealt (betting ▸ rfl), called, replays := ?_ }
    rintro fits quiet _ ⟨⟩ unended
    obtain rfl := act_refused (h.called hand betting) fits acted unended
    exact h.replays fits quiet _ betting unended
  | committed now _ _ _ _ hand' _ acceptable betting acted =>
    exact h.commit acceptable betting acted (by simp [commitEffects]) (called hand' rfl) now
  | advanced now _ _ _ _ hand' _ _ _ _ _ _ acceptable betting acted =>
    exact { h.commit acceptable betting acted (by simp [commitEffects])
      (called hand' rfl) now with }
  | stalled now _ _ _ _ hand' _ _ _ _ _ acceptable betting acted =>
    exact { h.commit acceptable betting acted (by simp [commitEffects])
      (called hand' rfl) now with }
  | showdownRun pending hand board holes free asked reason complete betting =>
    exact { h with
      undealt := by simp, dealt := fun _ => h.dealt (betting ▸ rfl), called
      replays := fun _ quiet =>
        absurd (mem_append_right _ (mem_singleton_self _)) (quiet _) }
  | _ => exact { h with }

/-- In every hand, the committed actions have the numbers up to the current one, each was
bound to the public state in which it was committed, and until the showdown the betting
state is their result. -/
theorem betting_replays_log {table : ReadyTable} (run : HandRun L table history a) :
    Logged L history a := by
  refine run.by_moves (fun hinitial => ?_) fun h move => h.step move
  obtain ⟨engine, localSeat, -, rfl⟩ := initialHand_eq_ok hinitial
  constructor
  case numbered =>
    simp [freshHand]
    omega
  case fed => rfl
  all_goals simp [freshHand]

/-- Two actions into a hand, the flop is due. -/
theorem betting_replays_log_flop : ∃ (a : ActiveHand Ziffle.plain) (hand : HoldemHand),
    a.sequence = 2 ∧ a.hand = some hand ∧ hand.street = .flop ∧ a.Replays hand := by
  have hplay : (playHand .plain (pairTable oneTwoLevel [chips 40, chips 40] 0) ()
      (seatExecution 0 0) (dealTurns ++ [.act 6 .call, .hearAction 7 1000007 .check])).any
      (fun s => s.active.sequence == 2 && s.active.hand.any (·.street = .flop) &&
        ((s.active.table.players.zip s.active.table.buyIns).map (·.2.value)).sum < 2 ^ 64 &&
        s.trace.all fun | .showdown _ => false | _ => true) = true := by
    decide +kernel
  obtain ⟨s, run, hcheck⟩ := exists_handRun_of_play hplay
  simp only [Bool.and_eq_true, beq_iff_eq, Option.any_eq_true, decide_eq_true_eq,
    all_eq_true] at hcheck
  obtain ⟨⟨⟨hseq, hand, hhand, hstreet⟩, fits⟩, quiet⟩ := hcheck
  exact ⟨s.active, hand, hseq, hhand, hstreet, (betting_replays_log run).replays fits
    (fun before hmem => by simpa using quiet _ hmem) hand hhand (by simp [hstreet])⟩

end TokenHoldem
