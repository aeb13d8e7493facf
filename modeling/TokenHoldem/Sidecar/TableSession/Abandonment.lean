import TokenHoldem.Sidecar.TableSession.Participants
import TokenHoldem.Sidecar.TableSession.StaleProposals

/-!
# Abandoned hands

A player who has signed a leave intent and is then disconnected for ten seconds
makes the other players give up the hand, in their next tick. Which intents count
is decided by `signed_disconnected_leaver`: only those that name the number of the
current hand. `request_leave` writes that number only when the session of the
leaver itself is in a hand.

- `tick_endings` — what a tick records about the end of a hand;
- `requestLeave_names` — which hand an intent names;
- `abandons_iff` — when the tick gives up the hand.
-/

namespace TokenHoldem

open Library SessionM Running FixedBytes Effect

variable {P : Primitives} {identity : LocalIdentity} {now : UInt64} {nowMonotonic : Nat}
  {sessionAddresses : List Bytes} {nonces : Nonces}

/-! ## The end of a hand in a tick -/

/-- The local join intent does not have to be renewed in a tick, or can be. -/
def Renews (P : Primitives) (identity : LocalIdentity) (active : ActiveSession)
    (sessionAddresses : List Bytes) (now : UInt64) (nonces : Nonces) : Prop :=
  saturatingSub active.localJoin.expiresAtUnixMs now ≤ joinRenewalMarginMs →
    active.localLeave = none →
    ∃ ticket renewed, issueLocalSessionTicket P active.level
        active.localJoin.ticket.requestedBuyIn sessionAddresses identity now nonces.ticket
          = .ok ticket ∧
      issueJoinIntent P active.tableId ticket identity now nonces.intent = .ok renewed

theorem renewLocalJoin_ok_iff {s : Running} :
    (∃ t, (renewLocalJoin P identity sessionAddresses now nonces).run s = .ok () t) ↔
      Renews P identity s.active sessionAddresses now nonces := by
  unfold renewLocalJoin Renews
  rw [run_getActive_bind]
  split
  · rename_i hdue
    constructor
    · rintro ⟨t, h⟩ - -
      obtain ⟨ticket, t₁, hticket, h⟩ := run_bind_eq_ok_iff.mp h
      obtain ⟨_, t₂, -, h⟩ := run_bind_eq_ok_iff.mp h
      obtain ⟨renewed, t₃, hrenewed, -⟩ := run_bind_eq_ok_iff.mp h
      exact ⟨ticket, renewed, (run_lift_eq_ok.mp hticket).1, (run_lift_eq_ok.mp hrenewed).1⟩
    · intro h
      obtain ⟨ticket, renewed, hticket, hrenewed⟩ := h hdue.1 hdue.2
      rw [run_bind_ok (run_lift_eq_ok.mpr ⟨hticket, rfl⟩)]
      have hrecord : (record (.signed (.ticket ticket))).run s = .ok () _ := rfl
      rw [run_bind_ok hrecord, run_bind_ok (run_lift_eq_ok.mpr ⟨hrenewed, rfl⟩)]
      exact ⟨_, rfl⟩
  · rename_i hdue
    refine iff_of_true ⟨s, rfl⟩ fun hexpiry hleave => absurd ⟨hexpiry, hleave⟩ hdue

variable {active : ActiveSession} {roster : SignedHandRosterProposal}

theorem signedDisconnectedLeaver_handActive {abandonment : SignedLeaveAbandonment}
    (h : signedDisconnectedLeaver P active nowMonotonic = some abandonment) :
    active.handActive = true := by
  unfold signedDisconnectedLeaver at h
  split at h
  · assumption
  · cases h

/-- The endings of a hand that is given up: the number of the next hand has to exist. -/
def endingsFor (active : ActiveSession) (abandonment : SignedLeaveAbandonment) : List HandEnding :=
  .aborted abandonment ::
    if (checkedAdd active.nextHandNumber 1).isSome then [.boundary abandonment.evidenceHash] else []

theorem abandonHandIfLeaverGone_endings (s : Running) :
    (endState ((abandonHandIfLeaverGone P nowMonotonic).run s)).endings =
      s.endings ++ (signedDisconnectedLeaver P s.active nowMonotonic).toList.flatMap
        (endingsFor s.active) := by
  unfold abandonHandIfLeaverGone
  rw [run_getActive_bind]
  cases hleaver : signedDisconnectedLeaver P s.active nowMonotonic with
  | none => simp
  | some abandonment =>
    have hactive := signedDisconnectedLeaver_handActive hleaver
    have hrecord : (record (.handAborted abandonment)).run s = .ok () _ := rfl
    simp only [run_bind_ok hrecord, finishHandBoundary, run_getActive_bind, SessionM.check,
      if_pos hactive]
    cases hnext : checkedAdd s.active.nextHandNumber 1 with
    | none =>
      show endings { s with trace := s.trace ++ [.handAborted abandonment] } = _
      simp [endings, endingsFor, ending?, hnext]
    | some next =>
      show (s.trace ++ [handAborted abandonment] ++ [boundary _ _]).filterMap ending? = _
      simp [endings, endingsFor, ending?, hnext]

/-- What a tick records about the end of a hand: nothing if it does not get past
the renewal, otherwise the abandonment, whatever becomes of the rest. -/
theorem tick_endings (P : Primitives) (identity : LocalIdentity) (active : ActiveSession)
    (sessionAddresses : List Bytes) (now : UInt64) (nowMonotonic : Nat) (nonces : Nonces) :
    let after := endState ((tick P identity sessionAddresses now nowMonotonic nonces).run
      ⟨active, []⟩)
    ¬Renews P identity active sessionAddresses now nonces ∧ after.endings = [] ∨
      Renews P identity active sessionAddresses now nonces ∧
        (¬AbandonsHand P active now nowMonotonic ∧ after.endings = [] ∨
          AbandonsHand P active now nowMonotonic ∧
            ∃ abandonment, after.endings = endingsFor active abandonment) := by
  intro after
  have hkept : Keeps endings (renewLocalJoin P identity sessionAddresses now nonces) :=
    renewLocalJoin_aside.comp Prod.snd
  have hrest : Keeps endings (tickAgreement P identity now nowMonotonic) :=
    tickAgreement_aside.comp Prod.snd
  cases hrenew : (renewLocalJoin P identity sessionAddresses now nonces).run ⟨active, []⟩ with
  | error e t =>
    refine .inl ⟨fun hrenews => ?_, ?_⟩
    rotate_left
    · unfold after tick
      rw [run_bind_error hrenew]
      exact hkept.of_error hrenew
    · obtain ⟨t', hok⟩ := renewLocalJoin_ok_iff.mpr (show Renews P identity
        (Running.mk active []).active sessionAddresses now nonces from hrenews)
      rw [hrenew] at hok
      cases hok
  | ok _ t =>
    refine .inr ⟨renewLocalJoin_ok_iff.mp ⟨t, hrenew⟩, ?_⟩
    obtain ⟨localJoin, joins, hactive⟩ := renewLocalJoin_eq_ok hrenew
    have hempty : t.trace.filterMap ending? = [] := hkept.of_ok hrenew
    obtain ⟨after, trace⟩ := t
    obtain rfl : after = { active with localJoin := localJoin, joins := joins } := hactive
    -- after the expired intents are dropped, only the abandonment counts
    have hendings : after.endings = (signedDisconnectedLeaver P { active with
        leaves := active.leaves.filter fun _ intent => isOk (intent.verifyAt P now) }
        nowMonotonic).toList.flatMap (endingsFor active) := by
      unfold after tick
      rw [run_bind_ok hrenew]
      refine (Keeps.endState_bind (x := abandonHandIfLeaverGone P nowMonotonic)
        (fun _ => hrest) _).trans ((abandonHandIfLeaverGone_endings _).trans ?_)
      show trace.filterMap ending? ++ _ = _
      rw [hempty]
      rfl
    unfold AbandonsHand
    rw [hendings]
    cases signedDisconnectedLeaver P { active with
      leaves := active.leaves.filter fun _ intent => isOk (intent.verifyAt P now) }
      nowMonotonic with
    | none => exact .inl ⟨by simp, rfl⟩
    | some abandonment => exact .inr ⟨rfl, abandonment, by simp⟩

/-! ## Who counts as gone -/

namespace ActiveSession

variable (active : ActiveSession)

/-- A peer has been disconnected for the whole grace period. -/
def PeerGone (P : Primitives) (nowMonotonic : Nat) (sessionPeerId : Bytes) : Prop :=
  ∃ peerId ∈ P.peerIdFromBytes sessionPeerId,
    ∃ disconnectedAt ∈ active.disconnectedExplicitPeers[peerId]?,
      signedLeaverDisconnectGrace ≤ nowMonotonic - disconnectedAt
deriving Decidable

/-- The peer that a player has in the current membership is gone. -/
def SeatGone (P : Primitives) (nowMonotonic : Nat) (playerId : PlayerId) : Prop :=
  ∃ membership ∈ active.membership, ∃ seat ∈ membership.proposal.seatByPlayer playerId,
    active.PeerGone P nowMonotonic seat.joinIntent.ticket.sessionPeerId
deriving Decidable

end ActiveSession

/-- A participant of the hand has left: the session holds a valid leave intent of the
participant for this table, and the participant's peer is gone. -/
structure Departed (P : Primitives) (active : ActiveSession) (now : UInt64) (nowMonotonic : Nat)
    (intent : LeaveIntent) : Prop where
  held : intent ∈ values active.leaves
  valid : intent.verifyAt P now = .ok ()
  table : intent.tableId = active.tableId
  gone : ∃ roster ∈ active.activeRoster,
    ∃ endpoint ∈ roster.proposal.endpointForPlayer intent.playerId,
      active.PeerGone P nowMonotonic endpoint.sessionPeerId

theorem leaverIsGone_iff {membership : SignedMembershipProposal} {intent : LeaveIntent}
    (hmembership : active.membership = some membership) :
    leaverIsGone P active membership.proposal nowMonotonic intent = true ↔
      active.SeatGone P nowMonotonic intent.playerId ∧
        intent.afterHandNumber = some active.nextHandNumber := by
  unfold leaverIsGone
  rw [decide_eq_true_iff, and_comm, Option.any_eq_true]
  refine and_congr_left fun _ => ?_
  simp only [decide_eq_true_iff, Option.bind_eq_some_iff]
  constructor
  · rintro ⟨since, ⟨seat, hseat, peerId, hpeer, hsince⟩, hgrace⟩
    exact ⟨membership, hmembership, seat, hseat, peerId, hpeer, since, hsince, hgrace⟩
  · rintro ⟨other, hother, seat, hseat, peerId, hpeer, since, hsince, hgrace⟩
    obtain rfl := Option.some.inj (hmembership.symm.trans hother)
    exact ⟨since, ⟨seat, hseat, peerId, hpeer, hsince⟩, hgrace⟩

/-- There is a leaver exactly when an intent names the current hand and its player
is gone. -/
theorem signedDisconnectedLeaver_isSome_iff (active : ActiveSession)
    (hactive : active.handActive = true) (hroster : active.activeRoster = some roster) :
    (signedDisconnectedLeaver P active nowMonotonic).isSome = true ↔
      ∃ intent ∈ values active.leaves, active.SeatGone P nowMonotonic intent.playerId ∧
        intent.afterHandNumber = some active.nextHandNumber := by
  unfold signedDisconnectedLeaver
  rw [hactive, hroster]
  cases hmembership : active.membership with
  | none =>
    refine iff_of_false (by simp) ?_
    rintro ⟨intent, -, ⟨membership, hsome, -⟩, -⟩
    rw [hmembership] at hsome
    cases hsome
  | some membership =>
    have hargmin : ∀ l : List LeaveIntent,
        (l.argmin (LeaveIntent.id P)).isSome = true ↔ ∃ intent, intent ∈ l := by
      intro l
      rw [← Option.ne_none_iff_isSome, Ne, List.argmin_eq_none]
      exact ⟨List.exists_mem_of_ne_nil l, fun ⟨_, hmem⟩ => List.ne_nil_of_mem hmem⟩
    rw [Option.isSome_map, hargmin]
    refine exists_congr fun intent => ?_
    rw [List.mem_filter, leaverIsGone_iff hmembership]

/-- A tick that gets so far abandons the hand exactly when a valid intent names it and
its player is gone. -/
theorem abandonsHand_iff (hactive : active.handActive = true)
    (hroster : active.activeRoster = some roster) : AbandonsHand P active now nowMonotonic ↔
      ∃ intent ∈ values active.leaves, intent.verifyAt P now = .ok () ∧
        active.SeatGone P nowMonotonic intent.playerId ∧
        intent.afterHandNumber = some active.nextHandNumber := by
  refine (signedDisconnectedLeaver_isSome_iff { active with
    leaves := active.leaves.filter fun _ intent => isOk (intent.verifyAt P now) }
    hactive hroster).trans (exists_congr fun intent => ?_)
  rw [values_filter, List.mem_filter, isOk_eq_true, and_assoc]
  have hunit : (∃ u, intent.verifyAt P now = .ok u) ↔ intent.verifyAt P now = .ok () :=
    ⟨fun ⟨_, h⟩ => h, fun h => ⟨(), h⟩⟩
  rw [hunit]
  exact Iff.rfl

/-! ## Giving up a hand -/

/-- The tick gives up the hand in the session: it makes the event of the abandonment and
ends the hand with its evidence. A tick that fails later still keeps this state, but its
events are lost. -/
def TickAborts (P : Primitives) (identity : LocalIdentity) (active : ActiveSession)
    (sessionAddresses : List Bytes) (now : UInt64) (nowMonotonic : Nat) (nonces : Nonces) : Prop :=
  ∃ abandonment : SignedLeaveAbandonment,
    .aborted abandonment ∈ (endState ((tick P identity sessionAddresses now nowMonotonic nonces).run
      ⟨active, []⟩)).endings ∧
    .boundary abandonment.evidenceHash ∈ (endState ((tick P identity sessionAddresses now
      nowMonotonic nonces).run ⟨active, []⟩)).endings

/-- An intent names the hand that the session of the leaver is in, if it is in one. -/
theorem requestLeave_names {leaver : LocalIdentity} {s t : Running} {nonce : FixedBytes 16}
    {intent : LeaveIntent} (hrun : (requestLeave P leaver now nowMonotonic nonce).run s = .ok () t)
    (hfirst : s.active.localLeave = none) (hintent : t.active.localLeave = some intent) :
    intent.afterHandNumber =
      if s.active.handActive then some s.active.nextHandNumber else none := by
  obtain ⟨_, signed, hissued, hleave⟩ := requestLeave_eq_ok hrun hfirst
  have hsame : signed = intent :=
    Option.some.inj ((congrArg Prod.fst hleave).symm.trans hintent)
  rw [← hsame]
  exact LeaveIntent.afterHandNumber_of_issue P hissued

/-- A participant has left the hand that a session is in. The next tick gives it up
exactly when it gets past the renewal of the local join intent, there is a next hand
number, and some valid intent names the number of this hand, of a player whose peer in
the current membership is gone. An intent names the number of this hand exactly when
the leaver's own session was in a hand with that number when it was signed. -/
theorem abandons_iff {active : ActiveSession} (hactive : active.handActive = true)
    (hdeparted : ∃ intent, Departed P active now nowMonotonic intent) :
    (TickAborts P identity active sessionAddresses now nowMonotonic nonces ↔
      Renews P identity active sessionAddresses now nonces ∧
        (checkedAdd active.nextHandNumber 1).isSome = true ∧
        ∃ intent ∈ values active.leaves, intent.verifyAt P now = .ok () ∧
          active.SeatGone P nowMonotonic intent.playerId ∧
          intent.afterHandNumber = some active.nextHandNumber) ∧
    ∀ (leaver : LocalIdentity) (signedAt : UInt64) (startedAt : Nat) (nonce : FixedBytes 16)
      (s t : Running) (intent : LeaveIntent),
      (requestLeave P leaver signedAt startedAt nonce).run s = .ok () t →
      s.active.localLeave = none → t.active.localLeave = some intent →
      (intent.afterHandNumber = some active.nextHandNumber ↔
        s.active.handActive = true ∧ s.active.nextHandNumber = active.nextHandNumber) := by
  constructor
  · obtain ⟨_, -, -, -, roster, hroster, -⟩ := hdeparted
    rw [← abandonsHand_iff hactive hroster]
    unfold TickAborts
    rcases tick_endings P identity active sessionAddresses now nowMonotonic nonces with
      ⟨hrenews, hnone⟩ | ⟨hrenews, ⟨hstays, hnone⟩ | ⟨hgone, abandonment, hsome⟩⟩
    · rw [hnone]
      exact iff_of_false (by simp) fun h => hrenews h.1
    · rw [hnone]
      exact iff_of_false (by simp) fun h => hstays h.2.2
    · rw [hsome, and_iff_right hrenews, and_iff_left hgone]
      cases hnext : checkedAdd active.nextHandNumber 1 <;> simp [endingsFor, hnext]
  · intro leaver signedAt startedAt nonce s t intent hrun hfirst hintent
    rw [requestLeave_names hrun hfirst hintent]
    split <;> simp_all

/-! ## A participant leaves -/

instance instDecidableDeparted (P : Primitives) (active : ActiveSession) (now : UInt64)
    (nowMonotonic : Nat) (intent : LeaveIntent) :
    Decidable (Departed P active now nowMonotonic intent) :=
  decidable_of_iff (intent ∈ values active.leaves ∧ intent.verifyAt P now = .ok () ∧
      intent.tableId = active.tableId ∧ ∃ roster ∈ active.activeRoster,
        ∃ endpoint ∈ roster.proposal.endpointForPlayer intent.playerId,
          active.PeerGone P nowMonotonic endpoint.sessionPeerId)
    ⟨fun ⟨held, valid, table, gone⟩ => ⟨held, valid, table, gone⟩,
      fun h => ⟨h.held, h.valid, h.table, h.gone⟩⟩

namespace Room

def isLeaveIntent : RoomWireMessage → Bool
  | .leaveIntent _ => true
  | _ => false

def isCertifiedRoster : RoomWireMessage → Bool
  | .certifiedRoster _ => true
  | _ => false

/-- The second player asks to leave, the creator hears of it, and the connection
breaks. -/
def leaveScript : List (Turn plainRoom) :=
  [.act (1 : Fin 4) (.requestLeave (plainTime 8000) 8000 (ofNat 3)),
    .hand 1 0 isLeaveIntent 8000, .act (0 : Fin 4) (.peerDisconnected ⟨2⟩ 9000)]

/-- The creator has begun the hand, the second player does not know it yet and leaves. -/
def earlyLeaveScript : List (Turn plainRoom) :=
  handScript ++ [.act (0 : Fin 4) (.adoptExplicitPeers []), .tick 0 7500] ++ leaveScript

/-- Both have begun the hand when the second player leaves. -/
def handLeaveScript : List (Turn plainRoom) :=
  handScript ++ [.act (0 : Fin 4) (.adoptExplicitPeers []), .tick 0 7500,
    .hand 0 1 isCertifiedRoster 7500] ++ leaveScript

/-- The hand that both players know of is given up. -/
theorem abandons_iff_in_hand :
    ∃ (w : plainRoom.World) (active : ActiveSession),
      Reach plainRoom.honest plainRoom.anything w ∧ (w (0 : Fin 4)).session = some active ∧
        active.handActive = true ∧
        (∃ intent, Departed .plain active (plainTime 20000) 20000 intent) ∧
        TickAborts .plain (plainRoom.identity (0 : Fin 4)) active
          [Primitives.plain.peerIdToBytes (plainRoom.identity (0 : Fin 4)).peerId]
          (plainTime 20000) 20000 ⟨ofNat 1, ofNat 2⟩ := by
  obtain ⟨w, active, after, hreach, hactive, -, hcheck⟩ := exists_tick handLeaveScript 20000
    (fun active _ => active.handActive = true ∧
      ¬saturatingSub active.localJoin.expiresAtUnixMs (plainTime 20000) ≤ joinRenewalMarginMs ∧
      (checkedAdd active.nextHandNumber 1).isSome = true ∧
      ∃ intent ∈ values active.leaves, Departed .plain active (plainTime 20000) 20000 intent ∧
        active.SeatGone .plain 20000 intent.playerId ∧
        intent.afterHandNumber = some active.nextHandNumber)
    (by decide +kernel)
  obtain ⟨hhand, hfresh, hnext, intent, hheld, hdeparted, hgone, hnames⟩ := of_decide_eq_true hcheck
  refine ⟨w, active, hreach, hactive, hhand, ⟨intent, hdeparted⟩,
    (abandons_iff hhand ⟨intent, hdeparted⟩).1.mpr ⟨?_, hnext, ?_⟩⟩
  · exact fun hdue _ => absurd hdue hfresh
  · exact ⟨intent, hheld, hdeparted.valid, hgone, hnames⟩

/-- The second player asks to leave before it knows that the hand has begun. Eleven
seconds after the connection broke the creator still waits for that player. -/
theorem early_leave_keeps_hand :
    ∃ (w : plainRoom.World) (active : ActiveSession) (after : Running),
      Reach plainRoom.honest plainRoom.anything w ∧ (w (0 : Fin 4)).session = some active ∧
        active.handActive = true ∧
        (∃ intent, Departed .plain active (plainTime 20000) 20000 intent ∧
          intent.afterHandNumber = none) ∧
        (creatorTick 20000).run ⟨active, []⟩ = .ok () after ∧ after.active.handActive = true ∧
        ¬TickAborts .plain (plainRoom.identity (0 : Fin 4)) active
          [Primitives.plain.peerIdToBytes (plainRoom.identity (0 : Fin 4)).peerId]
          (plainTime 20000) 20000 ⟨ofNat 1, ofNat 2⟩ := by
  obtain ⟨w, active, after, hreach, hactive, hrun, hcheck⟩ := exists_tick earlyLeaveScript 20000
    (fun active after => active.handActive = true ∧ after.handActive = true ∧
      (∃ intent ∈ values active.leaves, Departed .plain active (plainTime 20000) 20000 intent ∧
        intent.afterHandNumber = none) ∧
      ¬AbandonsHand .plain active (plainTime 20000) 20000)
    (by decide +kernel)
  obtain ⟨hhand, hafter, ⟨intent, -, hdeparted, hnone⟩, hstays⟩ := of_decide_eq_true hcheck
  refine ⟨w, active, after, hreach, hactive, hhand, ⟨intent, hdeparted, hnone⟩, hrun, hafter, ?_⟩
  rintro ⟨abandonment, haborted, -⟩
  rcases tick_endings .plain (plainRoom.identity (0 : Fin 4)) active
      [Primitives.plain.peerIdToBytes (plainRoom.identity (0 : Fin 4)).peerId] (plainTime 20000)
      20000 ⟨ofNat 1, ofNat 2⟩ with
    ⟨-, hempty⟩ | ⟨-, ⟨-, hempty⟩ | ⟨hgone, -⟩⟩
  · rw [hempty] at haborted
    cases haborted
  · rw [hempty] at haborted
    cases haborted
  · exact hstays hgone

end Room

end TokenHoldem
