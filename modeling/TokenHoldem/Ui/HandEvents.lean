import Mathlib.Data.List.Basic

/-!
# The hand in the user interface

The hand cases of `#applySidecarEvent` in `ui/src/core/bridge/host-bridge.ts`, with the
policies of `hand-event-policy.ts`. An interruption overwrites the phase of the hand, and its
end computes a phase from `awaitingReveal` alone. What the phase was, and whether another
peer is still away, is lost.

- `Steady` — the phases that the end of an interruption gives back;
- `Follows` — a hand with and a hand without an open interruption, event by event;
- `interruption_neutral_iff` — an interruption leaves no trace, wherever it ends, exactly if
  the hand was steady and no event until then ends the betting or is an interruption.
-/

namespace TokenHoldem.Ui

inductive HandProtocolPhase where
  | idle
  | keyExchange
  | shuffling
  | dealing
  | playing
  | revealing
  | settled
  | receiptConsensus
  | betweenHands
  | conflicted
  | interrupted
deriving DecidableEq

/-- `ProtocolPhase`, the phases before the cards are dealt. -/
inductive ProtocolPhase where
  | keyExchange
  | shuffling
  | dealing

namespace ProtocolPhase

/-- `PROTOCOL_PHASE_ORDER`. -/
def order : ProtocolPhase → Nat
  | keyExchange => 0
  | shuffling => 1
  | dealing => 2

def toHandPhase : ProtocolPhase → HandProtocolPhase
  | keyExchange => .keyExchange
  | shuffling => .shuffling
  | dealing => .dealing

end ProtocolPhase

namespace HandProtocolPhase

/-- `isProtocolPhase`, with the phase. -/
def protocolPhase? : HandProtocolPhase → Option ProtocolPhase
  | keyExchange => some .keyExchange
  | shuffling => some .shuffling
  | dealing => some .dealing
  | _ => none

/-- `TERMINAL_PHASES`. -/
def Terminal (phase : HandProtocolPhase) : Prop :=
  phase ∈ [settled, receiptConsensus, betweenHands, conflicted]
deriving Decidable

end HandProtocolPhase

inductive CardSuit where
  | club
  | diamond
  | heart
  | spade

structure HandCardSnapshot where
  rank : Nat
  suit : CardSuit

inductive HandSeatStatus where
  | active
  | folded
  | allIn

inductive HandActionKind where
  | fold
  | check
  | call
  | raise

structure HandSeatSnapshot where
  seat : Nat
  playerId : String
  stack : Nat
  committed : Nat
  status : HandSeatStatus
  lastAction : Option HandActionKind

structure HandOutcomeSnapshot where
  seat : Nat
  playerId : String
  startingStack : Nat
  endingStack : Nat
  delta : Int

/-- `ReceiptArchiveStatus`, as far as hand events set it. -/
inductive ReceiptStatus where
  | idle
  | signing
  | finalized

/-- `HandSnapshot`, with the values of `EMPTY_HAND`. -/
structure HandSnapshot where
  publicStateHash : Option String := none
  phase : HandProtocolPhase := .idle
  tableId : Option String := none
  handNumber : Nat := 0
  localSeat : Option Nat := none
  dealerSeat : Option Nat := none
  players : List String := []
  levelId : Option String := none
  smallBlind : Nat := 0
  bigBlind : Nat := 0
  buyIns : List Nat := []
  progressCompleted : Nat := 0
  progressRequired : Nat := 0
  holeCards : List HandCardSnapshot := []
  board : List HandCardSnapshot := []
  sequence : Nat := 0
  street : String := "preflop"
  pot : Nat := 0
  currentBet : Nat := 0
  nextSeat : Option Nat := none
  toCall : Nat := 0
  minimumRaiseTo : Nat := 0
  maximumRaiseTo : Nat := 0
  canAct : Bool := false
  awaitingReveal : Bool := false
  actionTimeoutMs : Nat := 30000
  turnDeadlineUnixMs : Option Nat := none
  seats : List HandSeatSnapshot := []
  pendingSequence : Option Nat := none
  transcriptHash : Option String := none
  outcomes : List HandOutcomeSnapshot := []
  receiptStatus : ReceiptStatus := .idle
  receiptSigned : Nat := 0
  receiptRequired : Nat := 0
  receiptId : Option String := none
  receiptAddress : Option String := none
  sessionInterrupted : Bool := false

def emptyHand : HandSnapshot := {}

structure HandScope where
  tableId : String
  handNumber : Nat
deriving DecidableEq

/-- The fields of `hand_protocol_started` besides its scope. -/
structure HandStart where
  seat : Nat
  dealerSeat : Nat
  players : List String
  levelId : String
  smallBlind : Nat
  bigBlind : Nat
  buyIns : List Nat

/-- The fields of `hand_state` besides its scope. -/
structure HandStateView where
  sequence : Nat
  publicStateHash : String
  street : String
  pot : Nat
  currentBet : Nat
  nextSeat : Option Nat
  localSeat : Nat
  toCall : Nat
  minimumRaiseTo : Nat
  maximumRaiseTo : Nat
  canAct : Bool
  awaitingReveal : Bool
  actionTimeoutMs : Nat
  turnDeadlineUnixMs : Option Nat
  board : List HandCardSnapshot
  seats : List HandSeatSnapshot
  transcriptHash : String

/-- The events of a hand. What only a warning shows of them is left out. -/
inductive HandEvent where
  | handProtocolStarted (scope : HandScope) (start : HandStart)
  | handProtocolProgress (scope : HandScope) (phase : ProtocolPhase) (completed required : Nat)
  | handReady (scope : HandScope) (seat : Nat) (holeCards : List HandCardSnapshot)
      (transcriptHash : String)
  | handState (scope : HandScope) (view : HandStateView)
  | handActionConflict (scope : HandScope)
  | handSettled (scope : HandScope) (outcomes : List HandOutcomeSnapshot)
      (transcriptHash : String)
  | receiptConsensusProgress (scope : HandScope) (signed required : Nat)
  | receiptFinalized (scope : HandScope) (receiptId : String) (signatures : Nat)
  | handSessionInterrupted (scope : HandScope) (peerId : String)
  | handSessionResumed (scope : HandScope) (peerId : String)
  | handLeft
  | handAbortedForLeave

/-- The hand that an event is about. -/
def HandEvent.scope? : HandEvent → Option HandScope
  | handProtocolStarted scope _ => some scope
  | handProtocolProgress scope _ _ _ => some scope
  | handReady scope _ _ _ => some scope
  | handState scope _ => some scope
  | handActionConflict scope => some scope
  | handSettled scope _ _ => some scope
  | receiptConsensusProgress scope _ _ => some scope
  | receiptFinalized scope _ _ => some scope
  | handSessionInterrupted scope _ => some scope
  | handSessionResumed scope _ => some scope
  | handLeft => none
  | handAbortedForLeave => none

namespace HandSnapshot

/-! ## The policies -/

variable (hand : HandSnapshot) (scope : HandScope)

/-- `isCurrentHand`. -/
def IsCurrentHand : Prop :=
  hand.tableId = some scope.tableId ∧ hand.handNumber = scope.handNumber
deriving Decidable

/-- `shouldAcceptHandStart`. -/
def ShouldAcceptHandStart : Prop :=
  hand.tableId = none ∨ hand.phase = .idle ∨
    hand.tableId = some scope.tableId ∧ hand.handNumber < scope.handNumber
deriving Decidable

def shouldAcceptHandProgress (phase : ProtocolPhase) (completed : Nat) : Bool :=
  decide (hand.IsCurrentHand scope) &&
    match hand.phase.protocolPhase? with
    | none => false
    | some current =>
      if phase.order < current.order then false
      else phase.order != current.order || decide (hand.progressCompleted ≤ completed)

/-- `shouldAcceptHandReady`. -/
def ShouldAcceptHandReady : Prop :=
  hand.IsCurrentHand scope ∧ ¬ hand.phase.Terminal
deriving Decidable

def phaseAfterHandReady (phase : HandProtocolPhase) : HandProtocolPhase :=
  if phase.protocolPhase?.isSome ∨ phase = .idle then .playing else phase

/-- `shouldAcceptHandState`. -/
def ShouldAcceptHandState (sequence : Nat) : Prop :=
  hand.IsCurrentHand scope ∧ ¬ hand.phase.Terminal ∧ hand.sequence ≤ sequence
deriving Decidable

/-- The phase of a hand that is being played. -/
def bettingPhase (awaitingReveal : Bool) : HandProtocolPhase :=
  if awaitingReveal then .revealing else .playing

def phaseAfterHandState (phase : HandProtocolPhase) (awaitingReveal : Bool) : HandProtocolPhase :=
  if phase = .interrupted then phase else bettingPhase awaitingReveal

/-! ## The reducer -/

/-- The hand while a peer is away. -/
def interrupt : HandSnapshot :=
  { hand with phase := .interrupted, sessionInterrupted := true }

/-- The hand when the peer is back. -/
def resume : HandSnapshot :=
  { hand with phase := bettingPhase hand.awaitingReveal, sessionInterrupted := false }

/-- The hand after an event (`#applySidecarEvent`). -/
def applySidecarEvent : HandEvent → HandSnapshot
  | .handProtocolStarted scope start =>
    if hand.ShouldAcceptHandStart scope then
      { emptyHand with
        phase := .keyExchange
        tableId := some scope.tableId
        handNumber := scope.handNumber
        localSeat := some start.seat
        dealerSeat := some start.dealerSeat
        players := start.players
        levelId := some start.levelId
        smallBlind := start.smallBlind
        bigBlind := start.bigBlind
        buyIns := start.buyIns
        progressRequired := start.players.length }
    else hand
  | .handProtocolProgress scope phase completed required =>
    if hand.shouldAcceptHandProgress scope phase completed then
      { hand with
        phase := phase.toHandPhase
        tableId := some scope.tableId
        handNumber := scope.handNumber
        progressCompleted := completed
        progressRequired := required }
    else hand
  | .handReady scope seat holeCards transcriptHash =>
    if hand.ShouldAcceptHandReady scope then
      { hand with
        phase := phaseAfterHandReady hand.phase
        tableId := some scope.tableId
        handNumber := scope.handNumber
        localSeat := some seat
        holeCards
        transcriptHash := some transcriptHash }
    else hand
  | .handState scope view =>
    if hand.ShouldAcceptHandState scope view.sequence then
      { hand with
        phase := phaseAfterHandState hand.phase view.awaitingReveal
        tableId := some scope.tableId
        handNumber := scope.handNumber
        localSeat := some view.localSeat
        board := view.board
        sequence := view.sequence
        publicStateHash := some view.publicStateHash
        street := view.street
        pot := view.pot
        currentBet := view.currentBet
        nextSeat := view.nextSeat
        toCall := view.toCall
        minimumRaiseTo := view.minimumRaiseTo
        maximumRaiseTo := view.maximumRaiseTo
        canAct := view.canAct
        awaitingReveal := view.awaitingReveal
        actionTimeoutMs := view.actionTimeoutMs
        turnDeadlineUnixMs := view.turnDeadlineUnixMs
        seats := view.seats
        pendingSequence := none
        transcriptHash := some view.transcriptHash }
    else hand
  | .handActionConflict scope =>
    if hand.IsCurrentHand scope then
      { hand with phase := .conflicted, canAct := false, pendingSequence := none }
    else hand
  | .handSettled scope outcomes transcriptHash =>
    if hand.IsCurrentHand scope then
      { hand with
        phase := .settled
        canAct := false
        awaitingReveal := false
        pendingSequence := none
        transcriptHash := some transcriptHash
        outcomes
        receiptStatus := .signing }
    else hand
  | .receiptConsensusProgress scope signed required =>
    if hand.IsCurrentHand scope then
      { hand with
        phase := .receiptConsensus
        canAct := false
        receiptStatus := .signing
        receiptSigned := signed
        receiptRequired := required }
    else hand
  | .receiptFinalized scope receiptId signatures =>
    if hand.IsCurrentHand scope then
      { hand with
        phase := .betweenHands
        canAct := false
        receiptStatus := .finalized
        receiptSigned := signatures
        receiptRequired := signatures
        receiptId := some receiptId }
    else hand
  | .handSessionInterrupted scope _ =>
    if hand.IsCurrentHand scope then hand.interrupt else hand
  | .handSessionResumed scope _ =>
    if hand.IsCurrentHand scope then hand.resume else hand
  | .handLeft => emptyHand
  | .handAbortedForLeave => emptyHand

/-- The hand after some events. -/
def applyAll (events : List HandEvent) : HandSnapshot :=
  events.foldl applySidecarEvent hand

@[simp]
theorem applyAll_nil : hand.applyAll [] = hand := rfl

@[simp]
theorem applyAll_cons (event : HandEvent) (events : List HandEvent) :
    hand.applyAll (event :: events) = (hand.applySidecarEvent event).applyAll events := rfl

@[simp]
theorem applyAll_append (first second : List HandEvent) :
    hand.applyAll (first ++ second) = (hand.applyAll first).applyAll second :=
  List.foldl_append

/-! ## Hands that an interruption does not change -/

/-- The hand is being played and nobody is away: its phase can be told from `awaitingReveal`. -/
structure Steady : Prop where
  phase : hand.phase = bettingPhase hand.awaitingReveal
  present : hand.sessionInterrupted = false

theorem steady_resume : hand.resume.Steady := ⟨rfl, rfl⟩

variable {hand}

theorem Steady.resume_eq (hsteady : hand.Steady) : hand.resume = hand := by
  unfold resume
  rw [← hsteady.phase, ← hsteady.present]

theorem resume_interrupt (hand : HandSnapshot) : hand.interrupt.resume = hand.resume := rfl

/-- The betting phases are no protocol phases, not idle and not terminal. -/
theorem bettingPhase_cases (awaitingReveal : Bool) :
    bettingPhase awaitingReveal = .revealing ∨ bettingPhase awaitingReveal = .playing := by
  cases awaitingReveal
  · exact .inr rfl
  · exact .inl rfl

theorem Steady.not_terminal (hsteady : hand.Steady) : ¬ hand.phase.Terminal := by
  rw [hsteady.phase]
  rcases bettingPhase_cases hand.awaitingReveal with h | h <;> rw [h] <;> decide

theorem Steady.protocolPhase_eq_none (hsteady : hand.Steady) :
    hand.phase.protocolPhase? = none := by
  rw [hsteady.phase]
  rcases bettingPhase_cases hand.awaitingReveal with h | h <;> rw [h] <;> rfl

theorem Steady.phase_ne (hsteady : hand.Steady) :
    hand.phase ≠ .idle ∧ hand.phase ≠ .interrupted := by
  rw [hsteady.phase]
  rcases bettingPhase_cases hand.awaitingReveal with h | h <;> rw [h] <;> decide

end HandSnapshot

/-- The events after which a hand that was being played still is, with nobody away. -/
def HandEvent.KeepsPlaying : HandEvent → Prop
  | handActionConflict _ => False
  | handSettled _ _ _ => False
  | receiptConsensusProgress _ _ _ => False
  | receiptFinalized _ _ _ => False
  | handSessionInterrupted _ _ => False
  | _ => True

namespace HandSnapshot

variable {hand : HandSnapshot} {scope : HandScope} {events : List HandEvent}

/-- An event of the current hand leaves the hand current. -/
theorem IsCurrentHand.applySidecarEvent (hcurrent : hand.IsCurrentHand scope) {event : HandEvent}
    (hscope : event.scope? = some scope) : (hand.applySidecarEvent event).IsCurrentHand scope := by
  cases event with
  | handLeft => cases hscope
  | handAbortedForLeave => cases hscope
  | _ =>
    cases hscope
    simp only [HandSnapshot.applySidecarEvent]
    split
    · first | exact ⟨rfl, rfl⟩ | exact hcurrent
    · exact hcurrent

theorem IsCurrentHand.applyAll (hcurrent : hand.IsCurrentHand scope)
    (hscope : ∀ event ∈ events, event.scope? = some scope) :
    (hand.applyAll events).IsCurrentHand scope := by
  induction events generalizing hand with
  | nil => exact hcurrent
  | cons event events ih =>
    rw [List.forall_mem_cons] at hscope
    exact ih (hcurrent.applySidecarEvent hscope.1) hscope.2

/-- Every other event ends the betting or sends somebody away. -/
theorem not_steady_of_not_keepsPlaying (hcurrent : hand.IsCurrentHand scope) {event : HandEvent}
    (hscope : event.scope? = some scope) (hends : ¬ event.KeepsPlaying) :
    ¬ (hand.applySidecarEvent event).Steady := by
  intro hsteady
  cases event with
  | handSessionInterrupted _ _ =>
    cases hscope
    have hpresent := hsteady.present
    simp [applySidecarEvent, hcurrent, interrupt] at hpresent
  | handActionConflict _ | handSettled _ _ _ | receiptConsensusProgress _ _ _
  | receiptFinalized _ _ _ =>
    cases hscope
    refine hsteady.not_terminal ?_
    simp only [applySidecarEvent, hcurrent, if_true]
    decide
  | _ => exact hends trivial

/-- A steady hand, and the same hand during an interruption, or after it. -/
def Follows (hand shadow : HandSnapshot) : Prop :=
  hand.Steady ∧ (shadow = hand.interrupt ∨ shadow = hand)

theorem Follows.resume {shadow : HandSnapshot} (hfollows : hand.Follows shadow) :
    shadow.resume = hand := by
  rcases hfollows with ⟨hsteady, rfl | rfl⟩
  · rw [resume_interrupt, hsteady.resume_eq]
  · exact hsteady.resume_eq

theorem IsCurrentHand.not_shouldAcceptHandStart (hcurrent : hand.IsCurrentHand scope)
    (hphase : hand.phase ≠ .idle) : ¬ hand.ShouldAcceptHandStart scope := by
  rintro (hnone | hidle | ⟨-, hlater⟩)
  · rw [hcurrent.1] at hnone
    cases hnone
  · exact hphase hidle
  · exact absurd hcurrent.2 (Nat.ne_of_lt hlater)

theorem shouldAcceptHandProgress_eq_false (hphase : hand.phase.protocolPhase? = none)
    (scope : HandScope) (phase : ProtocolPhase) (completed : Nat) :
    hand.shouldAcceptHandProgress scope phase completed = false := by
  simp [shouldAcceptHandProgress, hphase]

theorem Steady.phaseAfterHandReady (hsteady : hand.Steady) :
    phaseAfterHandReady hand.phase = hand.phase := by
  simp [HandSnapshot.phaseAfterHandReady, hsteady.protocolPhase_eq_none, hsteady.phase_ne.1]

section Steady

variable {hand : HandSnapshot} {scope : HandScope} {event : HandEvent}

theorem Steady.applySidecarEvent (hsteady : hand.Steady) (hcurrent : hand.IsCurrentHand scope)
    (hscope : event.scope? = some scope) (hkeeps : event.KeepsPlaying) :
    (hand.applySidecarEvent event).Steady := by
  cases event with
  | handProtocolStarted _ start =>
    cases hscope
    rw [HandSnapshot.applySidecarEvent,
      if_neg (hcurrent.not_shouldAcceptHandStart hsteady.phase_ne.1)]
    exact hsteady
  | handProtocolProgress _ phase completed required =>
    rw [HandSnapshot.applySidecarEvent,
      shouldAcceptHandProgress_eq_false hsteady.protocolPhase_eq_none, if_neg Bool.false_ne_true]
    exact hsteady
  | handReady _ seat holeCards transcriptHash =>
    rw [HandSnapshot.applySidecarEvent]
    split
    · exact ⟨hsteady.phaseAfterHandReady.trans hsteady.phase, hsteady.present⟩
    · exact hsteady
  | handState _ view =>
    rw [HandSnapshot.applySidecarEvent]
    split
    · exact ⟨if_neg hsteady.phase_ne.2, hsteady.present⟩
    · exact hsteady
  | handSessionResumed _ peerId =>
    rw [HandSnapshot.applySidecarEvent]
    split
    · exact steady_resume hand
    · exact hsteady
  | _ => first | exact hkeeps.elim | cases hscope

/-- An event during an interruption does what it would have done, and the end of another
interruption ends this one. -/
theorem Steady.applySidecarEvent_interrupt (hsteady : hand.Steady)
    (hcurrent : hand.IsCurrentHand scope) (hscope : event.scope? = some scope)
    (hkeeps : event.KeepsPlaying) :
    hand.interrupt.applySidecarEvent event = (hand.applySidecarEvent event).interrupt ∨
      hand.interrupt.applySidecarEvent event = hand.applySidecarEvent event := by
  have hcurrent' : hand.interrupt.IsCurrentHand scope := hcurrent
  have hidle' : hand.interrupt.phase ≠ .idle := by
    change HandProtocolPhase.interrupted ≠ .idle
    decide
  have hopen' : ¬ hand.interrupt.phase.Terminal := by
    change ¬ HandProtocolPhase.interrupted.Terminal
    decide
  cases event with
  | handProtocolStarted _ start =>
    cases hscope
    left
    simp only [HandSnapshot.applySidecarEvent,
      if_neg (hcurrent.not_shouldAcceptHandStart hsteady.phase_ne.1),
      if_neg (hcurrent'.not_shouldAcceptHandStart hidle')]
  | handProtocolProgress _ phase completed required =>
    left
    have hshadow : hand.interrupt.phase.protocolPhase? = none := rfl
    simp only [HandSnapshot.applySidecarEvent,
      shouldAcceptHandProgress_eq_false hsteady.protocolPhase_eq_none,
      shouldAcceptHandProgress_eq_false hshadow, Bool.false_eq_true, if_false]
  | handReady _ seat holeCards transcriptHash =>
    cases hscope
    left
    have haccept : hand.ShouldAcceptHandReady scope := ⟨hcurrent, hsteady.not_terminal⟩
    have haccept' : hand.interrupt.ShouldAcceptHandReady scope := ⟨hcurrent', hopen'⟩
    simp only [HandSnapshot.applySidecarEvent, if_pos haccept, if_pos haccept']
    rfl
  | handState _ view =>
    cases hscope
    left
    by_cases hsequence : hand.sequence ≤ view.sequence
    · have haccept : hand.ShouldAcceptHandState scope view.sequence :=
        ⟨hcurrent, hsteady.not_terminal, hsequence⟩
      have haccept' : hand.interrupt.ShouldAcceptHandState scope view.sequence :=
        ⟨hcurrent', hopen', hsequence⟩
      simp only [HandSnapshot.applySidecarEvent, if_pos haccept, if_pos haccept']
      rfl
    · have hreject : ¬ hand.ShouldAcceptHandState scope view.sequence :=
        fun haccept => hsequence haccept.2.2
      have hreject' : ¬ hand.interrupt.ShouldAcceptHandState scope view.sequence :=
        fun haccept => hsequence haccept.2.2
      simp only [HandSnapshot.applySidecarEvent, if_neg hreject, if_neg hreject']
  | handSessionResumed _ peerId =>
    cases hscope
    right
    simp only [HandSnapshot.applySidecarEvent, if_pos hcurrent, if_pos hcurrent', resume_interrupt]
  | _ => first | exact hkeeps.elim | cases hscope

theorem Follows.applySidecarEvent {shadow : HandSnapshot} (hfollows : hand.Follows shadow)
    (hcurrent : hand.IsCurrentHand scope) (hscope : event.scope? = some scope)
    (hkeeps : event.KeepsPlaying) :
    (hand.applySidecarEvent event).Follows (shadow.applySidecarEvent event) := by
  rcases hfollows with ⟨hsteady, rfl | rfl⟩
  · exact ⟨hsteady.applySidecarEvent hcurrent hscope hkeeps,
      hsteady.applySidecarEvent_interrupt hcurrent hscope hkeeps⟩
  · exact ⟨hsteady.applySidecarEvent hcurrent hscope hkeeps, .inr rfl⟩

end Steady

theorem Follows.applyAll {shadow : HandSnapshot} (hfollows : hand.Follows shadow)
    (hcurrent : hand.IsCurrentHand scope) (hscope : ∀ event ∈ events, event.scope? = some scope)
    (hkeeps : ∀ event ∈ events, event.KeepsPlaying) :
    (hand.applyAll events).Follows (shadow.applyAll events) := by
  induction events generalizing hand shadow with
  | nil => exact hfollows
  | cons event events ih =>
    rw [List.forall_mem_cons] at hscope hkeeps
    exact ih (hfollows.applySidecarEvent hcurrent hscope.1 hkeeps.1)
      (hcurrent.applySidecarEvent hscope.1) hscope.2 hkeeps.2

/-- An interruption of the current hand, and its end. -/
theorem applyAll_interruption (hcurrent : hand.IsCurrentHand scope)
    (hscope : ∀ event ∈ events, event.scope? = some scope) (peerId : String) :
    hand.applyAll (.handSessionInterrupted scope peerId :: events ++
      [.handSessionResumed scope peerId]) = (hand.interrupt.applyAll events).resume := by
  have hinterrupted : hand.interrupt.IsCurrentHand scope := hcurrent
  have hlater := hinterrupted.applyAll hscope
  simp [HandSnapshot.applySidecarEvent, hcurrent, hlater]

/-- Whatever the hand has gone through: an interruption leaves no trace in it, wherever among
the events that follow it ends, and whatever comes after that, exactly if the hand was being
played with nobody away, and none of the events ends the betting or is another
interruption. -/
theorem interruption_neutral_iff (before between : List HandEvent) (scope : HandScope)
    (peerId : String) (hcurrent : (emptyHand.applyAll before).IsCurrentHand scope)
    (hscope : ∀ event ∈ between, event.scope? = some scope) :
    (∀ passed later, passed <+: between →
      emptyHand.applyAll (before ++ (.handSessionInterrupted scope peerId :: passed ++
        [.handSessionResumed scope peerId]) ++ later) =
        emptyHand.applyAll (before ++ passed ++ later)) ↔
      (emptyHand.applyAll before).Steady ∧ ∀ event ∈ between, event.KeepsPlaying := by
  constructor
  · intro hneutral
    -- every hand on the way is one that the end of an interruption gives
    have hsteady : ∀ passed, passed <+: between →
        ((emptyHand.applyAll before).applyAll passed).Steady := by
      intro passed hpassed
      have hsame := hneutral passed [] hpassed
      simp only [List.append_nil] at hsame
      rw [applyAll_append, applyAll_interruption hcurrent fun event hevent =>
        hscope event (hpassed.subset hevent), applyAll_append] at hsame
      rw [← hsame]
      exact steady_resume _
    refine ⟨hsteady [] (List.nil_prefix ..), fun event hevent => ?_⟩
    by_contra hends
    obtain ⟨first, second, rfl⟩ := List.append_of_mem hevent
    have hfirst := hcurrent.applyAll fun earlier hearlier =>
      hscope earlier (List.mem_append_left _ hearlier)
    refine not_steady_of_not_keepsPlaying hfirst (hscope event hevent) hends ?_
    simpa using hsteady (first ++ [event]) ⟨second, by simp⟩
  · rintro ⟨hsteady, hkeeps⟩ passed later hpassed
    have hfollows : (emptyHand.applyAll before).Follows (emptyHand.applyAll before).interrupt :=
      ⟨hsteady, .inl rfl⟩
    have hpast := hfollows.applyAll hcurrent
      (fun event hevent => hscope event (hpassed.subset hevent))
      (fun event hevent => hkeeps event (hpassed.subset hevent))
    rw [applyAll_append, applyAll_append, applyAll_interruption hcurrent fun event hevent =>
      hscope event (hpassed.subset hevent), hpast.resume, applyAll_append, applyAll_append]

/-! ### Hands with two players -/

/-- The first hand of a table. -/
def firstHand : HandScope := ⟨"table", 1⟩

def firstHandStarted : HandEvent :=
  .handProtocolStarted firstHand
    { seat := 1, dealerSeat := 1, players := ["a", "b"], levelId := "micro"
      smallBlind := 1, bigBlind := 2, buyIns := [40, 40] }

/-- The state of a hand after some actions. -/
def stateAt (sequence : Nat) : HandEvent :=
  .handState firstHand
    { sequence, publicStateHash := "", street := "preflop", pot := 3, currentBet := 2
      nextSeat := some 1, localSeat := 1, toCall := 1, minimumRaiseTo := 4
      maximumRaiseTo := 40, canAct := true, awaitingReveal := false, actionTimeoutMs := 30000
      turnDeadlineUnixMs := none, board := [], seats := [], transcriptHash := "" }

theorem interruption_neutral_playing :
    emptyHand.applyAll ([firstHandStarted, stateAt 0] ++
        (.handSessionInterrupted firstHand "p" :: [stateAt 1] ++
          [.handSessionResumed firstHand "p"]) ++ [.handSettled firstHand [] ""]) =
      emptyHand.applyAll ([firstHandStarted, stateAt 0] ++ [stateAt 1] ++
        [.handSettled firstHand [] ""]) := by
  refine (interruption_neutral_iff [firstHandStarted, stateAt 0] [stateAt 1, stateAt 2] firstHand
    "p" (by decide +kernel) (by decide)).mpr ⟨⟨by decide +kernel, by decide +kernel⟩, ?_⟩
    [stateAt 1] [.handSettled firstHand [] ""] (by simp)
  intro event hevent
  rcases List.mem_pair.mp hevent with rfl | rfl <;> trivial

/-- A settled hand is played again after an interruption and takes the state that follows,
the progress of the shuffle is dropped during an interruption, and the first peer that is back
hides that another one is away. -/
theorem interruption_leaves_trace :
    (emptyHand.applyAll [firstHandStarted, stateAt 0, .handSettled firstHand [] "",
        stateAt 1]).phase = .settled ∧
      (emptyHand.applyAll [firstHandStarted, stateAt 0, .handSettled firstHand [] "",
        .handSessionInterrupted firstHand "p", .handSessionResumed firstHand "p",
        stateAt 1]).phase = .playing ∧
      (emptyHand.applyAll [firstHandStarted, stateAt 0, .handSettled firstHand [] "",
        .handSessionInterrupted firstHand "p", .handSessionResumed firstHand "p",
        stateAt 1]).canAct = true ∧
      (emptyHand.applyAll [firstHandStarted,
        .handProtocolProgress firstHand .shuffling 1 2]).phase = .shuffling ∧
      (emptyHand.applyAll [firstHandStarted, .handSessionInterrupted firstHand "p",
        .handProtocolProgress firstHand .shuffling 1 2,
        .handSessionResumed firstHand "p"]).phase = .playing ∧
      (emptyHand.applyAll [firstHandStarted, .handSessionInterrupted firstHand "p",
        .handProtocolProgress firstHand .shuffling 1 2,
        .handSessionResumed firstHand "p"]).progressCompleted = 0 ∧
      (emptyHand.applyAll [firstHandStarted, stateAt 0,
        .handSessionInterrupted firstHand "q"]).sessionInterrupted = true ∧
      (emptyHand.applyAll [firstHandStarted, stateAt 0,
        .handSessionInterrupted firstHand "p", .handSessionInterrupted firstHand "q",
        .handSessionResumed firstHand "p"]).sessionInterrupted = false := by
  decide +kernel

end HandSnapshot

end TokenHoldem.Ui
