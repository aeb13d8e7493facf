import TokenHoldem.Network.Validity
import TokenHoldem.Sidecar.TableSession.Runtime

/-!
# What a call can do to the agreement

Every call of the session is a sequence of a few kinds of moves: it opens a
membership proposal, votes for it, collects votes, activates a membership, and
the same for hand rosters; hands begin and end; everything else it changes has
no part in the agreement. `Move` lists them with what is known when they are
made, `step_moves` says that every call is made of them.
-/

namespace TokenHoldem

open Library SessionM ActiveSession Ends List

/-- The part of a session that decides about memberships, rosters and hands. -/
structure Consensus where
  tableId : TableId
  level : StakeLevel
  membership : Option SignedMembershipProposal
  membershipCertificate : Option CertifiedMembership
  pendingMembership : Option SignedMembershipProposal
  membershipAcceptances : Std.TreeMap JoinClaimId MembershipAcceptance
  localMembershipAcceptance : Option MembershipAcceptance
  pendingRoster : Option SignedHandRosterProposal
  activeRoster : Option SignedHandRosterProposal
  rosterCertificate : Option CertifiedRoster
  rosterAcceptances : Std.TreeMap JoinClaimId HandRosterAcceptance
  localRosterAcceptance : Option HandRosterAcceptance
  handActive : Bool
  handClockKnown : Bool
  nextHandNumber : UInt64
  previousReceiptHash : Option Bytes32

def ActiveSession.consensus (active : ActiveSession) : Consensus where
  tableId := active.tableId
  level := active.level
  membership := active.membership
  membershipCertificate := active.membershipCertificate
  pendingMembership := active.pendingMembership
  membershipAcceptances := active.membershipAcceptances
  localMembershipAcceptance := active.localMembershipAcceptance
  pendingRoster := active.pendingRoster
  activeRoster := active.activeRoster
  rosterCertificate := active.rosterCertificate
  rosterAcceptances := active.rosterAcceptances
  localRosterAcceptance := active.localRosterAcceptance
  handActive := active.handActive
  handClockKnown := active.handClockKnown
  nextHandNumber := active.nextHandNumber
  previousReceiptHash := active.previousReceiptHash

namespace RoomWireMessage

def membershipAcceptances : RoomWireMessage → List MembershipAcceptance
  | .membershipAcceptance acceptance => [acceptance]
  | .certifiedMembership confirmed => confirmed.acceptances
  | _ => []

def rosterAcceptances : RoomWireMessage → List HandRosterAcceptance
  | .rosterAcceptance acceptance => [acceptance]
  | .certifiedRoster confirmed => confirmed.acceptances
  | _ => []

end RoomWireMessage

namespace Consensus

/-- The membership acceptances a session holds. -/
def heldMembership (c : Consensus) : List MembershipAcceptance :=
  values c.membershipAcceptances ++ c.localMembershipAcceptance.toList
    ++ c.membershipCertificate.toList.flatMap CertifiedMembership.acceptances

/-- The roster acceptances a session holds. -/
def heldRoster (c : Consensus) : List HandRosterAcceptance :=
  values c.rosterAcceptances ++ c.localRosterAcceptance.toList
    ++ c.rosterCertificate.toList.flatMap CertifiedRoster.acceptances

theorem mem_heldMembership {c : Consensus} {a : MembershipAcceptance} :
    a ∈ c.heldMembership ↔ a ∈ values c.membershipAcceptances ∨
      c.localMembershipAcceptance = some a ∨
      ∃ confirmed, c.membershipCertificate = some confirmed ∧ a ∈ confirmed.acceptances := by
  simp [heldMembership]

theorem mem_heldRoster {c : Consensus} {a : HandRosterAcceptance} :
    a ∈ c.heldRoster ↔ a ∈ values c.rosterAcceptances ∨ c.localRosterAcceptance = some a ∨
      ∃ confirmed, c.rosterCertificate = some confirmed ∧ a ∈ confirmed.acceptances := by
  simp [heldRoster]

end Consensus

/-- Effects that leave the agreement alone; a message passes on acceptances the
session holds. -/
inductive Note (c : Consensus) : Effect → Prop
  | ticket (pool : PoolTicket) : Note c (.signed (.ticket pool))
  | joinIntent (intent : JoinIntent) : Note c (.signed (.joinIntent intent))
  | leaveIntent (intent : LeaveIntent) : Note c (.signed (.leaveIntent intent))
  | membershipProposal (signed : SignedMembershipProposal) :
      Note c (.signed (.membershipProposal signed))
  | rosterProposal (signed : SignedHandRosterProposal) : Note c (.signed (.rosterProposal signed))
  | sent (message : RoomWireMessage)
      (memberships : ∀ a ∈ message.membershipAcceptances, a ∈ c.heldMembership)
      (rosters : ∀ a ∈ message.rosterAcceptances, a ∈ c.heldRoster) : Note c (.sent message)
  | handAborted (abandonment : SignedLeaveAbandonment) : Note c (.handAborted abandonment)

/-- The session has laid out the proposal itself and signed it. -/
inductive LaidOut (P : Primitives) (a : ActiveSession) (now : UInt64)
    (signed : SignedMembershipProposal) : Prop
  | intro (device : DeviceIdentity) (certificate : DeviceCertificate)
      (membership : SignedMembershipProposal) (layout : List MembershipSeatClaim × List JoinIntent)
      (proposal : MembershipProposal) (current : a.membership = some membership)
      (laidOut : nextMembershipLayout P a (canonicalPlayerJoins P a now) = .ok layout)
      (assembled : MembershipProposal.assemble P a.tableId a.level
        (saturatingAdd membership.proposal.membershipVersion 1)
        (some membership.proposal.proposalHash) layout.1 layout.2 (values a.leaves) now
          = .ok proposal)
      (issued : SignedMembershipProposal.issue P proposal now device certificate = .ok signed)

/-- Where a membership proposal comes from that becomes the pending one: it was
received and passed the checks, or the session laid it out itself. -/
inductive Opening (P : Primitives) (received : Option RoomWireMessage) (a : ActiveSession)
    (now : UInt64) (signed : SignedMembershipProposal) : Prop
  | received (origin : received = some (.membershipProposal signed))
      (verified : signed.verifyAt P now = .ok ())
      (scope : validateMembershipScope a signed = .ok ())
  | own (laid : LaidOut P a now signed)

/-- A certified membership is the pending one with acceptances that have been collected,
or it has been received. -/
abbrev MembershipOrigin (received : Option RoomWireMessage) (a : ActiveSession)
    (confirmed : CertifiedMembership) : Prop :=
  (a.pendingMembership = some confirmed.proposal ∧
      ∀ acceptance ∈ confirmed.acceptances, acceptance ∈ values a.membershipAcceptances) ∨
    (received = some (.certifiedMembership confirmed) ∧
      validateMembershipScope a confirmed.proposal = .ok ())

/-- One move of a call of the session, with its effects. `received` is the
message the call handles. -/
inductive Move (P : Primitives) (identity : LocalIdentity) (received : Option RoomWireMessage) :
    ActiveSession → List Effect → ActiveSession → Prop
  | quiet {a b} (same : b.consensus = a.consensus) : Move P identity received a [] b
  | note {a effect} (harmless : Note a.consensus effect) : Move P identity received a [effect] a
  /-- `pending_membership.take()`. -/
  | takeMembership {a b} (change : b.consensus = { a.consensus with pendingMembership := none }) :
      Move P identity received a [] b
  | forgetMembership {a b}
      (change : b.consensus = { a.consensus with
        pendingMembership := none, membershipAcceptances := ∅
        localMembershipAcceptance := none }) :
      Move P identity received a [] b
  | proposeMembership {a} (signed : SignedMembershipProposal) (now : UInt64)
      (laid : LaidOut P a now signed) :
      Move P identity received a [.proposedMembership a now signed] a
  | openMembership {a b} (signed : SignedMembershipProposal) (now : UInt64)
      (opening : Opening P received a now signed)
      (change : b.consensus = { a.consensus with
        pendingMembership := some signed, membershipAcceptances := ∅,
        localMembershipAcceptance := none }) :
      Move P identity received a [.openedMembership a now signed] b
  | voteMembership {a b} (signed : SignedMembershipProposal) (claimId : JoinClaimId) (now : UInt64)
      (acceptance : MembershipAcceptance) (pending : a.pendingMembership = some signed)
      (issued : MembershipAcceptance.issue P signed claimId now identity.device
        identity.certificate = .ok acceptance)
      (change : b.consensus = { a.consensus with
        membershipAcceptances := a.membershipAcceptances.insert acceptance.claimId acceptance
        localMembershipAcceptance := some acceptance }) :
      Move P identity received a [.signed (.membershipAcceptance signed acceptance)] b
  | collectMembership {a b} (acceptance : MembershipAcceptance)
      (origin : received = some (.membershipAcceptance acceptance))
      (change : b.consensus = { a.consensus with
        membershipAcceptances := a.membershipAcceptances.insert acceptance.claimId acceptance }) :
      Move P identity received a [] b
  /-- From the acceptances of the pending proposal, or from a certificate. -/
  | activateMembership {a b} (before : ActiveSession) (confirmed : CertifiedMembership)
      (now : UInt64) (verified : confirmed.verifyAt P now = .ok ())
      (origin : MembershipOrigin received a confirmed)
      (same : before.consensus =
        { a.consensus with pendingMembership := before.pendingMembership })
      (change : b.consensus = { a.consensus with
        membership := some confirmed.proposal, membershipCertificate := some confirmed
        pendingMembership := none, membershipAcceptances := ∅
        pendingRoster := none, rosterAcceptances := ∅, localRosterAcceptance := none }) :
      Move P identity received a [.activatedMembership (some before) confirmed] b
  /-- A vote for a roster of the next hand, or for a later hand whose clock the
  voter takes over. -/
  | voteRoster {a b} (signed : SignedHandRosterProposal) (claimId : JoinClaimId) (now : UInt64)
      (acceptance : HandRosterAcceptance) (known : Bool) (receipt : Option Bytes32)
      (number : a.nextHandNumber = signed.handNumber ∨ a.nextHandNumber < signed.handNumber)
      (members : a.membership = some signed.membership)
      (issued : HandRosterAcceptance.issue P signed claimId now identity.device
        identity.certificate = .ok acceptance)
      (change : b.consensus = { a.consensus with
        pendingRoster := some signed
        rosterAcceptances :=
          (∅ : Std.TreeMap JoinClaimId HandRosterAcceptance).insert acceptance.claimId acceptance
        localRosterAcceptance := some acceptance
        handClockKnown := known, nextHandNumber := signed.handNumber
        previousReceiptHash := receipt }) :
      Move P identity received a
        [.rosterBallot a signed, .signed (.rosterAcceptance signed acceptance)] b
  | adoptClock {a b} (number : UInt64) (receipt : Option Bytes32)
      (later : a.nextHandNumber = number ∨ a.nextHandNumber < number)
      (change : b.consensus = { a.consensus with
        handClockKnown := true, nextHandNumber := number, previousReceiptHash := receipt }) :
      Move P identity received a [] b
  | collectRoster {a b} (acceptance : HandRosterAcceptance)
      (origin : received = some (.rosterAcceptance acceptance))
      (change : b.consensus = { a.consensus with
        rosterAcceptances := a.rosterAcceptances.insert acceptance.claimId acceptance }) :
      Move P identity received a [] b
  /-- `pending_roster.take()`. -/
  | takeRoster {a b} (change : b.consensus = { a.consensus with pendingRoster := none }) :
      Move P identity received a [] b
  | activateRoster {a b} (before : ActiveSession) (confirmed : CertifiedRoster) (now : UInt64)
      (verified : confirmed.verifyAt P now = .ok ())
      (origin : (a.pendingRoster = some confirmed.proposal ∧
          ∀ acceptance ∈ confirmed.acceptances, acceptance ∈ values a.rosterAcceptances) ∨
        (received = some (.certifiedRoster confirmed) ∧
          a.membership = some confirmed.proposal.membership))
      (same : before.consensus = { a.consensus with pendingRoster := before.pendingRoster })
      (change : b.consensus = { a.consensus with
        activeRoster := some confirmed.proposal, rosterCertificate := some confirmed
        pendingRoster := none, rosterAcceptances := ∅, handActive := true }) :
      Move P identity received a [.activatedRoster before confirmed] b
  /-- The first half of `finish_hand_boundary`, when there is no next hand number. -/
  | endHand {a b} (evidenceHash : Bytes32)
      (change : b.consensus = { a.consensus with
        handActive := false, handClockKnown := true, previousReceiptHash := some evidenceHash }) :
      Move P identity received a [] b
  | boundary {a b} (evidenceHash : Bytes32) (next : UInt64) (hand : a.handActive = true)
      (number : checkedAdd a.nextHandNumber 1 = some next)
      (change : b.consensus = { a.consensus with
        handActive := false, handClockKnown := true, previousReceiptHash := some evidenceHash
        nextHandNumber := next, pendingRoster := none, activeRoster := none
        rosterCertificate := none, rosterAcceptances := ∅, localRosterAcceptance := none
        pendingMembership := none, membershipAcceptances := ∅
        localMembershipAcceptance := none }) :
      Move P identity received a [.boundary a evidenceHash] b

/-- Any number of moves, with all their effects in order. -/
inductive Moves (P : Primitives) (identity : LocalIdentity) (received : Option RoomWireMessage)
    (a : ActiveSession) : List Effect → ActiveSession → Prop
  | refl : Moves P identity received a [] a
  | tail {b c effects more} (moves : Moves P identity received a effects b)
      (move : Move P identity received b more c) : Moves P identity received a (effects ++ more) c

/-- A call that was started on `a` has come to `s` by moves. -/
def After (P : Primitives) (identity : LocalIdentity) (received : Option RoomWireMessage)
    (a : ActiveSession) (s : Running) : Prop := Moves P identity received a s.trace s.active

section

variable {P : Primitives} {identity : LocalIdentity} {received : Option RoomWireMessage}
  {start a b : ActiveSession} {s : Running} {effects : List Effect}

namespace After

section

variable (h : After P identity received start s)

include h

theorem move (m : Move P identity received s.active effects b) :
    After P identity received start ⟨b, s.trace ++ effects⟩ := .tail h m

/-- A move without effects. -/
theorem silent (m : Move P identity received s.active [] b) :
    After P identity received start ⟨b, s.trace⟩ := by
  have moved := h.move m
  rwa [append_nil] at moved

theorem quiet (same : b.consensus = s.active.consensus) :
    After P identity received start ⟨b, s.trace⟩ := h.silent (.quiet same)

theorem note {effect : Effect} (harmless : Note s.active.consensus effect) :
    After P identity received start ⟨s.active, s.trace ++ [effect]⟩ := h.move (.note harmless)

end

end After

/-- What can become of the pending membership. -/
theorem Move.pendingMembership (h : Move P identity received a effects b) :
    b.consensus.pendingMembership = a.consensus.pendingMembership ∨
      b.consensus.pendingMembership = none ∨ ∃ signed now, Opening P received a now signed ∧
        .openedMembership a now signed ∈ effects ∧ b.consensus.pendingMembership = some signed := by
  cases h with
  | note => exact .inl rfl
  | proposeMembership => exact .inl rfl
  | openMembership signed now opening change =>
    exact .inr (.inr ⟨signed, now, opening, mem_cons_self, by rw [change]⟩)
  | takeMembership change => exact .inr (.inl (by rw [change]))
  | forgetMembership change => exact .inr (.inl (by rw [change]))
  | activateMembership _ _ _ _ _ _ change => exact .inr (.inl (by rw [change]))
  | boundary _ _ _ _ change => exact .inr (.inl (by rw [change]))
  | quiet change => exact .inl (by rw [change])
  | voteMembership _ _ _ _ _ _ change => exact .inl (by rw [change])
  | collectMembership _ _ change => exact .inl (by rw [change])
  | voteRoster _ _ _ _ _ _ _ _ _ change => exact .inl (by rw [change])
  | adoptClock _ _ _ change => exact .inl (by rw [change])
  | collectRoster _ _ change => exact .inl (by rw [change])
  | takeRoster change => exact .inl (by rw [change])
  | activateRoster _ _ _ _ _ _ change => exact .inl (by rw [change])
  | endHand _ change => exact .inl (by rw [change])

variable {signed : SignedMembershipProposal} {change : ActiveSession → ActiveSession} {now : UInt64}
  {confirmed : CertifiedMembership} {nowMonotonic : Nat} {sessionAddresses : List Bytes}

/-- Only the pending membership is voted for. -/
theorem Move.pendingMembership_of_vote (h : Move P identity received a effects b)
    {acceptance : MembershipAcceptance}
    (vote : .signed (.membershipAcceptance signed acceptance) ∈ effects) :
    a.pendingMembership = some signed := by
  cases h with
  | note harmless =>
    obtain rfl := mem_singleton.mp vote
    cases harmless
  | voteMembership _ _ _ _ pending =>
    cases mem_singleton.mp vote
    exact pending
  | _ => simp at vote

/-- A change outside the agreement. -/
theorem ends_quiet (h : After P identity received start s)
    (same : ∀ active, (change active).consensus = active.consensus) :
    Ends (After P identity received start) s (update change) := ends_update (h.quiet (same _))

theorem ends_quiet_bind {β : Type} {k : Unit → SessionM β} (h : After P identity received start s)
    (same : ∀ active, (change active).consensus = active.consensus)
    (rest : ∀ t, t.active = change s.active → After P identity received start t →
      Ends (After P identity received start) t (k ())) :
    Ends (After P identity received start) s (update change >>= k) :=
  ends_update_bind (rest _ rfl (h.quiet (same _)))

/-! ## Memberships -/

theorem validateMembershipScope_eq_ok (h : validateMembershipScope a signed = .ok ()) :
    signed.proposal.level = a.level := by
  unfold validateMembershipScope at h
  obtain ⟨-, h⟩ := ensure_bind_eq_ok.mp h
  exact (ensure_bind_eq_ok.mp h).1

theorem Opening.level (h : Opening P received a now signed) : signed.proposal.level = a.level := by
  cases h with
  | received _ _ scope => exact validateMembershipScope_eq_ok scope
  | own laid =>
    obtain ⟨_, _, _, _, _, _, _, assembled, issued⟩ := laid
    rw [SignedMembershipProposal.issue_eq_ok issued]
    exact (MembershipProposal.assemble_eq_ok assembled).2.1

/-- A proposal is verified when it becomes the pending one. -/
theorem Opening.verified (law : P.SignaturesVerify) (h : Opening P received a now signed) :
    signed.verifyAt P now = .ok () := by
  cases h with
  | received _ verified _ => exact verified
  | own laid =>
    obtain ⟨_, _, _, _, _, _, _, _, issued⟩ := laid
    exact SignedMembershipProposal.verifyAt_of_issue law issued

theorem CertifiedMembership.assemble_eq_ok {acceptances : List MembershipAcceptance}
    (h : assemble P signed acceptances now = .ok confirmed) :
    confirmed.proposal = signed ∧ confirmed.verifyAt P now = .ok () ∧
      ∀ acceptance ∈ confirmed.acceptances, acceptance ∈ acceptances := by
  unfold assemble at h
  obtain ⟨hverified, h⟩ := unit_bind_eq_ok.mp h
  cases h
  exact ⟨rfl, hverified, fun acceptance hmem => mem_sortByKey.mp hmem⟩

theorem acceptMembershipProposal_after (h : After P identity received start s)
    (opening : Opening P received s.active now signed) : Ends (After P identity received start) s
      (acceptMembershipProposal P identity.device identity.certificate signed now) := by
  unfold acceptMembershipProposal
  apply ends_getActive
  refine Ends.ite (fun _ => ?_) fun _ => pure h
  apply ends_record_bind
  apply ends_update_bind
  have opened := h.move (.openMembership (b := { s.active with
    pendingMembership := some signed, membershipAcceptances := ∅,
    localMembershipAcceptance := none }) signed now opening rfl)
  cases signed.proposal.seatByPlayer s.active.localJoin.playerId with
  | none => exact pure opened
  | some seat =>
    refine ends_lift_bind opened fun acceptance issued => ?_
    apply ends_record_bind
    exact ends_update (opened.move (.voteMembership signed _ now acceptance rfl issued rfl))

theorem maybeProposeMembership_after (h : After P identity received start s) :
    Ends (After P identity received start) s
      (maybeProposeMembership P identity.device identity.certificate now) := by
  unfold maybeProposeMembership
  apply ends_getActive
  split
  · exact pure h
  · exact pure h
  · rename_i membership _ hmembership
    refine Ends.ite (fun _ => pure h) fun _ => ?_
    refine ends_lift_bind h fun layout laidOut => ?_
    refine Ends.ite (fun _ => pure h) fun _ => ?_
    refine ends_someOr_bind h fun coordinator _ => ?_
    refine Ends.ite (fun _ => pure h) fun _ => ?_
    refine Ends.ite (fun _ => pure h) fun _ => ?_
    refine ends_lift_bind h fun proposal assembled => ?_
    refine ends_lift_bind h fun signed issued => ?_
    have laid : LaidOut P s.active now signed :=
      ⟨identity.device, identity.certificate, membership, layout, proposal, hmembership, laidOut,
        assembled, issued⟩
    apply ends_record_bind
    apply ends_record_bind
    have proposed := (h.note (.membershipProposal signed)).move (.proposeMembership signed now laid)
    exact acceptMembershipProposal_after proposed (.own laid)

/-- The activation of a membership, reached from `a` by clearing at most the
pending proposal. -/
theorem activateMembership_after (h : After P identity received start ⟨a, s.trace⟩)
    (same : s.active.consensus =
      { a.consensus with pendingMembership := s.active.pendingMembership })
    (verified : confirmed.verifyAt P now = .ok ())
    (origin : MembershipOrigin received a confirmed) :
    Ends (After P identity received start) s (activateMembership confirmed nowMonotonic) := by
  unfold activateMembership
  apply ends_getActive
  apply ends_record_bind
  refine ends_update (h.move (.activateMembership s.active confirmed now verified origin same ?_))
  simp only [consensus, Consensus.mk.injEq] at same ⊢
  simp [same]

theorem finalizeMembershipIfReady_after (h : After P identity received start s) :
    Ends (After P identity received start) s (finalizeMembershipIfReady P now nowMonotonic) := by
  unfold finalizeMembershipIfReady
  apply ends_getActive
  split
  · exact pure h
  · rename_i pending hpending
    refine Ends.ite (fun _ => ?_) fun _ => pure h
    apply ends_update_bind
    refine ends_lift_bind (h.silent (.takeMembership rfl)) fun confirmed assembled => ?_
    obtain ⟨rfl, verified, hheld⟩ := CertifiedMembership.assemble_eq_ok assembled
    exact activateMembership_after h rfl verified (.inl ⟨hpending, hheld⟩)

/-! ## Hand rosters -/

theorem CertifiedRoster.assemble_eq_ok {signed : SignedHandRosterProposal}
    {acceptances : List HandRosterAcceptance} {confirmed : CertifiedRoster}
    (h : assemble P signed acceptances now = .ok confirmed) :
    confirmed.proposal = signed ∧ confirmed.verifyAt P now = .ok () ∧
      ∀ acceptance ∈ confirmed.acceptances, acceptance ∈ acceptances := by
  unfold assemble at h
  obtain ⟨hverified, h⟩ := unit_bind_eq_ok.mp h
  cases h
  exact ⟨rfl, hverified, fun acceptance hmem => mem_sortByKey.mp hmem⟩

/-- The session after a vote for a roster. -/
def ActiveSession.withRosterVote (active : ActiveSession) (signed : SignedHandRosterProposal)
    (acceptance : HandRosterAcceptance) : ActiveSession :=
  { active with
    pendingRoster := some signed
    rosterAcceptances :=
      (∅ : Std.TreeMap JoinClaimId HandRosterAcceptance).insert acceptance.claimId acceptance
    localRosterAcceptance := some acceptance }

/-- A roster proposal is passed over, refused or voted for. -/
theorem acceptRosterProposal_cases (identity : LocalIdentity) (signed : SignedHandRosterProposal)
    (now : UInt64) (s : Running) :
    endState ((acceptRosterProposal P identity.device identity.certificate signed now).run s) = s ∨
      ∃ claimId acceptance, (signed.proposal.endpointForPlayer s.active.localJoin.playerId).isSome ∧
        HandRosterAcceptance.issue P signed claimId now identity.device identity.certificate
          = .ok acceptance ∧
        (acceptRosterProposal P identity.device identity.certificate signed now).run s
          = .ok () ⟨s.active.withRosterVote signed acceptance, s.trace ++
            [.rosterBallot s.active signed, .signed (.rosterAcceptance signed acceptance)]⟩ := by
  unfold acceptRosterProposal
  rw [run_getActive_bind]
  cases hend : signed.proposal.endpointForPlayer s.active.localJoin.playerId with
  | none => exact .inl rfl
  | some localEndpoint =>
    by_cases hreplaces : replacesRoster s.active signed
    · simp only [if_pos hreplaces]
      cases hissued : HandRosterAcceptance.issue P signed localEndpoint.claimId now identity.device
          identity.certificate with
      | error e => exact .inl rfl
      | ok acceptance =>
        refine .inr ⟨localEndpoint.claimId, acceptance, rfl, hissued, ?_⟩
        rw [append_cons]
        rfl
    · simp only [if_neg hreplaces]
      exact .inl rfl

theorem acceptRosterProposal_after {signed : SignedHandRosterProposal}
    (h : After P identity received start s) (number : s.active.nextHandNumber = signed.handNumber)
    (members : s.active.membership = some signed.membership) :
    Ends (After P identity received start) s
      (acceptRosterProposal P identity.device identity.certificate signed now) := by
  unfold Ends
  rcases acceptRosterProposal_cases identity signed now s with
    hsame | ⟨claimId, acceptance, -, issued, hrun⟩
  · rw [hsame]
    exact h
  · rw [hrun]
    exact h.move (.voteRoster signed claimId now acceptance s.active.handClockKnown
      s.active.previousReceiptHash (.inl number) members issued
      (by simp [consensus, withRosterVote, number]))

theorem maybeProposeRoster_after (h : After P identity received start s) :
    Ends (After P identity received start) s
      (maybeProposeRoster P identity.device identity.certificate now nowMonotonic) := by
  unfold maybeProposeRoster
  apply ends_getActive
  refine Ends.ite (fun _ => pure h) fun _ => ?_
  split
  · exact pure h
  · rename_i current hcurrent
    refine Ends.ite (fun _ => ends_update (h.quiet rfl)) fun _ => ?_
    apply ends_update_bind
    have waiting := h.quiet (b := { s.active with
      countdownStartedAt := some (s.active.countdownStartedAt.getD nowMonotonic) }) rfl
    refine Ends.ite (fun _ => pure waiting) fun _ => ?_
    refine ends_someOr_bind waiting fun coordinator _ => ?_
    refine Ends.ite (fun _ => pure waiting) fun _ => ?_
    refine ends_lift_bind waiting fun membership _ => ?_
    refine ends_lift_bind waiting fun ready hready => ?_
    refine ends_lift_bind waiting fun proposal assembled => ?_
    refine ends_lift_bind waiting fun signed issued => ?_
    apply ends_record_bind
    have proposed := waiting.note (.rosterProposal signed)
    obtain ⟨hproposal, hmembers⟩ := SignedHandRosterProposal.issue_eq_ok issued
    have hnumber : s.active.nextHandNumber = signed.handNumber := by
      rw [SignedHandRosterProposal.handNumber, hproposal,
        HandRosterProposal.assemble_eq_ok assembled,
        ReadyHandRoster.fromMembership_eq_ok hready]
    exact acceptRosterProposal_after proposed hnumber (hmembers ▸ hcurrent)

/-- The activation of a roster, reached from `a` by clearing at most the pending one. -/
theorem activateRoster_after {confirmed : CertifiedRoster}
    (h : After P identity received start ⟨a, s.trace⟩) (hs : After P identity received start s)
    (same : s.active.consensus = { a.consensus with pendingRoster := s.active.pendingRoster })
    (verified : confirmed.verifyAt P now = .ok ())
    (origin : (a.pendingRoster = some confirmed.proposal ∧
        ∀ acceptance ∈ confirmed.acceptances, acceptance ∈ values a.rosterAcceptances) ∨
      (received = some (.certifiedRoster confirmed) ∧
        a.membership = some confirmed.proposal.membership)) :
    Ends (After P identity received start) s (activateRoster P confirmed) := by
  unfold activateRoster
  apply ends_getActive
  refine ends_lift_bind hs fun ready _ => ?_
  apply ends_record_bind
  refine ends_update (h.move (.activateRoster s.active confirmed now verified origin same ?_))
  simp only [consensus, Consensus.mk.injEq] at same ⊢
  simp [same]

theorem finalizeRosterIfReady_after (h : After P identity received start s) :
    Ends (After P identity received start) s (finalizeRosterIfReady P now) := by
  unfold finalizeRosterIfReady
  apply ends_getActive
  split
  · exact pure h
  · rename_i pending hpending
    refine Ends.ite (fun _ => ?_) fun _ => pure h
    apply ends_update_bind
    have taken := h.silent (.takeRoster (b := { s.active with pendingRoster := none }) rfl)
    refine ends_lift_bind taken fun confirmed assembled => ?_
    obtain ⟨rfl, verified, hheld⟩ := CertifiedRoster.assemble_eq_ok assembled
    exact activateRoster_after h taken rfl verified (.inl ⟨hpending, hheld⟩)

/-! ## Messages sent -/

/-- A call that has come to `active` by moves and goes on without changing it. -/
def Resting (P : Primitives) (identity : LocalIdentity) (received : Option RoomWireMessage)
    (start active : ActiveSession) (s : Running) : Prop :=
  After P identity received start s ∧ s.active = active

section

variable (h : Resting P identity received start a s)

include h

theorem deliverConsensusMessage_resting {message : RoomWireMessage}
    {recipients : Except SessionError (List DirectRoomRecipient)}
    (memberships : ∀ acceptance ∈ message.membershipAcceptances,
      acceptance ∈ a.consensus.heldMembership)
    (rosters : ∀ acceptance ∈ message.rosterAcceptances, acceptance ∈ a.consensus.heldRoster) :
    Ends (Resting P identity received start a) s (deliverConsensusMessage message recipients) := by
  obtain ⟨after, rfl⟩ := h
  unfold deliverConsensusMessage
  refine ends_lift_bind ⟨after, rfl⟩ fun _ _ => ?_
  exact ends_record ⟨after.note (.sent message memberships rosters), rfl⟩

theorem publishRosterCertificate_resting :
    Ends (Resting P identity received start a) s (publishRosterCertificate P) := by
  unfold publishRosterCertificate
  apply ends_getActive
  split
  · exact pure h
  · rename_i certificate hcertificate
    refine deliverConsensusMessage_resting h (by nofun) fun acceptance hmem => ?_
    obtain ⟨-, rfl⟩ := h
    refine mem_append_right _ ?_
    simp only [consensus, hcertificate]
    simpa [RoomWireMessage.rosterAcceptances] using hmem

theorem publishMembershipCertificate_resting :
    Ends (Resting P identity received start a) s (publishMembershipCertificate P) := by
  unfold publishMembershipCertificate
  apply ends_getActive
  split
  · exact pure h
  · rename_i certificate hcertificate
    refine ends_lift_bind h fun isCoordinator _ => ?_
    refine deliverConsensusMessage_resting h (fun acceptance hmem => ?_) (by nofun)
    obtain ⟨-, rfl⟩ := h
    refine mem_append_right _ ?_
    simp only [consensus, hcertificate]
    simpa [RoomWireMessage.membershipAcceptances] using hmem

theorem publishLeave_resting : Ends (Resting P identity received start a) s (publishLeave P a) := by
  unfold publishLeave
  split
  · exact pure h
  · exact deliverConsensusMessage_resting h (by nofun) (by nofun)

theorem publishMembershipProposal_resting :
    Ends (Resting P identity received start a) s (publishMembershipProposal P a) := by
  unfold publishMembershipProposal
  split
  · exact pure h
  · refine ends_lift_bind h fun isCoordinator _ => ?_
    refine Ends.ite (fun _ => ?_) fun _ => pure h
    exact deliverConsensusMessage_resting h (by nofun) (by nofun)

theorem publishMembershipAcceptance_resting :
    Ends (Resting P identity received start a) s (publishMembershipAcceptance P a) := by
  unfold publishMembershipAcceptance
  split
  · rename_i acceptance signed hlocal _
    refine ends_lift_bind h fun isCoordinator _ => ?_
    refine deliverConsensusMessage_resting h (fun other hmem => ?_) (by nofun)
    rw [mem_singleton.mp hmem]
    simp [Consensus.heldMembership, consensus, hlocal]
  · exact pure h

theorem publishRosterProposal_resting :
    Ends (Resting P identity received start a) s (publishRosterProposal P a) := by
  unfold publishRosterProposal
  split
  · exact pure h
  · refine Ends.ite (fun _ => ?_) fun _ => pure h
    exact deliverConsensusMessage_resting h (by nofun) (by nofun)

theorem publishRosterAcceptance_resting :
    Ends (Resting P identity received start a) s (publishRosterAcceptance P a) := by
  unfold publishRosterAcceptance
  split
  · rename_i acceptance signed hlocal _
    refine deliverConsensusMessage_resting h (by nofun) fun other hmem => ?_
    rw [mem_singleton.mp hmem]
    simp [Consensus.heldRoster, consensus, hlocal]
  · exact pure h

end

section

variable (h : After P identity received start s)

include h

theorem publishActiveMessages_after :
    Ends (After P identity received start) s (publishActiveMessages P nowMonotonic) := by
  have forget : ∀ active t, Resting P identity received start active t →
      After P identity received start t := fun _ _ ht => ht.1
  unfold publishActiveMessages
  refine (publishRosterCertificate_resting ⟨h, rfl⟩).bind (forget _) fun _ t ht => ?_
  refine (publishMembershipCertificate_resting ht).bind (forget _) fun _ t ht => ?_
  apply ends_getActive
  obtain ⟨ht, -⟩ := ht
  refine Ends.ite (fun _ => ?_) fun _ => pure ht
  apply ends_record_bind
  have joined := ht.note (.sent (.joinIntent t.active.localJoin) (by nofun) (by nofun))
  refine (publishLeave_resting ⟨joined, rfl⟩).bind (forget _) fun _ t ht => ?_
  refine (publishMembershipProposal_resting ht).bind (forget _) fun _ t ht => ?_
  refine (publishMembershipAcceptance_resting ht).bind (forget _) fun _ t ht => ?_
  refine (publishRosterProposal_resting ht).bind (forget _) fun _ t ht => ?_
  refine (publishRosterAcceptance_resting ht).bind (forget _) fun _ t ht => ?_
  exact ends_quiet ht.1 fun _ => rfl

theorem synchronizeExplicitSessionPeers_after {localPeerId : PeerId} :
    Ends (After P identity received start) s (synchronizeExplicitSessionPeers P localPeerId) := by
  unfold synchronizeExplicitSessionPeers
  apply ends_getActive
  refine Ends.ite (fun _ => pure h) fun _ => ?_
  refine ends_lift_bind h fun desired _ => ?_
  exact ends_quiet h fun _ => rfl

/-! ## Ticks and hands -/

theorem finishHandBoundary_after {evidenceHash : Bytes32} {dealerSeat : PhysicalSeat} :
    Ends (After P identity received start) s
      (finishHandBoundary evidenceHash dealerSeat nowMonotonic) := by
  unfold finishHandBoundary
  apply ends_getActive
  refine ends_check_bind h fun hand => ?_
  apply ends_update_bind
  refine ends_someOr_bind (h.silent (.endHand evidenceHash rfl)) fun next number => ?_
  apply ends_record_bind
  exact ends_update (h.move (.boundary evidenceHash next hand number rfl))

theorem renewLocalJoin_after {nonces : Nonces} : Ends (After P identity received start) s
      (renewLocalJoin P identity sessionAddresses now nonces) := by
  unfold renewLocalJoin
  apply ends_getActive
  refine Ends.ite (fun _ => ?_) fun _ => pure h
  refine ends_lift_bind h fun ticket _ => ?_
  apply ends_record_bind
  have ticketed := h.note (.ticket ticket)
  refine ends_lift_bind ticketed fun renewed _ => ?_
  apply ends_record_bind
  exact ends_quiet (ticketed.note (.joinIntent renewed)) fun _ => rfl

theorem abandonHandIfLeaverGone_after :
    Ends (After P identity received start) s (abandonHandIfLeaverGone P nowMonotonic) := by
  unfold abandonHandIfLeaverGone
  apply ends_getActive
  split
  · exact pure h
  · rename_i abandonment _
    apply ends_record_bind
    exact finishHandBoundary_after (h.note (.handAborted abandonment))

theorem tick_after {nonces : Nonces} : Ends (After P identity received start) s
      (tick P identity sessionAddresses now nowMonotonic nonces) := by
  unfold tick
  refine (renewLocalJoin_after h).seq fun _ t ht => ?_
  refine ends_quiet_bind ht (fun _ => rfl) fun t _ ht => ?_
  refine (abandonHandIfLeaverGone_after ht).seq fun _ t ht => ?_
  refine (maybeProposeMembership_after ht).seq fun _ t ht => ?_
  refine (finalizeMembershipIfReady_after ht).seq fun _ t ht => ?_
  refine (maybeProposeRoster_after ht).seq fun _ t ht => ?_
  refine (finalizeRosterIfReady_after ht).seq fun _ t ht => ?_
  refine (synchronizeExplicitSessionPeers_after ht).seq fun _ t ht => ?_
  exact publishActiveMessages_after ht

end

/-! ## Messages received -/

section

variable {source : Option PeerId} {now : UInt64} {nowMonotonic : Nat}

theorem handleJoinIntent_after {intent : JoinIntent} (h : After P identity received start s) :
    Ends (After P identity received start) s (handleJoinIntent P source intent now) := by
  unfold handleJoinIntent
  apply ends_getActive
  refine ends_lift_bind h fun _ _ => ?_
  refine ends_lift_bind h fun _ _ => ?_
  refine ends_lift_bind h fun _ _ => ?_
  exact ends_quiet_bind h (fun _ => rfl) fun t _ ht => pure ht

theorem handleLeaveIntent_after {intent : LeaveIntent} (h : After P identity received start s) :
    Ends (After P identity received start) s (handleLeaveIntent P source intent now) := by
  unfold handleLeaveIntent
  apply ends_getActive
  refine ends_lift_bind h fun _ _ => ?_
  refine ends_check_bind h fun _ => ?_
  refine ends_lift_bind h fun _ _ => ?_
  exact ends_quiet_bind h (fun _ => rfl) fun t _ ht => pure ht

theorem handleMembershipProposal_after {signed : SignedMembershipProposal}
    (h : After P identity (some (.membershipProposal signed)) start s) :
    Ends (After P identity (some (.membershipProposal signed)) start) s
      (handleMembershipProposal P identity source signed now) := by
  unfold handleMembershipProposal
  apply ends_getActive
  refine Ends.ite (fun _ => pure h) fun _ => ?_
  refine ends_lift_bind h fun _ verified => ?_
  refine ends_lift_bind h fun _ scope => ?_
  refine ends_someOr_bind h fun coordinator _ => ?_
  refine ends_lift_bind h fun _ _ => ?_
  refine ends_quiet_bind h (fun _ => rfl) fun t hactive ht => ?_
  refine (acceptMembershipProposal_after ht (.received rfl verified ?_)).seq
    fun _ t ht => pure ht
  rw [hactive]
  exact scope

theorem handleMembershipAcceptance_after {acceptance : MembershipAcceptance}
    (h : After P identity (some (.membershipAcceptance acceptance)) start s) :
    Ends (After P identity (some (.membershipAcceptance acceptance)) start) s
      (handleMembershipAcceptance P source acceptance now) := by
  unfold handleMembershipAcceptance
  apply ends_getActive
  refine Ends.ite (fun _ => pure h) fun _ => ?_
  refine ends_someOr_bind h fun pending _ => ?_
  refine ends_lift_bind h fun _ _ => ?_
  refine ends_someOr_bind h fun seat _ => ?_
  refine ends_lift_bind h fun _ _ => ?_
  apply ends_update_bind
  exact pure (h.silent (.collectMembership acceptance rfl rfl))

theorem handleCertifiedMembership_after {confirmed : CertifiedMembership}
    (h : After P identity (some (.certifiedMembership confirmed)) start s) :
    Ends (After P identity (some (.certifiedMembership confirmed)) start) s
      (handleCertifiedMembership P source confirmed now nowMonotonic) := by
  unfold handleCertifiedMembership
  apply ends_getActive
  refine Ends.ite (fun _ => pure h) fun _ => ?_
  refine ends_lift_bind h fun _ verified => ?_
  refine ends_lift_bind h fun _ scope => ?_
  refine ends_lift_bind h fun _ _ => ?_
  refine ends_quiet_bind h (fun _ => rfl) fun t hactive ht => ?_
  refine (activateMembership_after ht rfl verified (.inr ⟨rfl, ?_⟩)).seq fun _ t ht => pure ht
  rw [hactive]
  exact scope

variable {signed : SignedHandRosterProposal} {message : RoomWireMessage}

theorem validateRosterScope_eq_ok (h : validateRosterScope a signed = .ok ()) :
    a.membership = some signed.membership ∧ (a.nextHandNumber = signed.handNumber ∨
        (a.handClockKnown = false ∧ a.nextHandNumber < signed.handNumber)) := by
  unfold validateRosterScope at h
  obtain ⟨membership, hmembership, h⟩ := okOr_bind_eq_ok.mp h
  obtain ⟨hsame, h⟩ := ensure_bind_eq_ok.mp h
  refine ⟨hsame ▸ hmembership, ?_⟩
  rcases ensure_eq_ok.mp h with number | ⟨known, later, -⟩
  · exact .inl number.symm
  · exact .inr ⟨known, later⟩

theorem handleCertifiedRoster_after {confirmed : CertifiedRoster}
    (h : After P identity (some (.certifiedRoster confirmed)) start s) :
    Ends (After P identity (some (.certifiedRoster confirmed)) start) s
      (handleCertifiedRoster P source confirmed now) := by
  unfold handleCertifiedRoster
  apply ends_getActive
  refine Ends.ite (fun _ => pure h) fun _ => ?_
  refine ends_lift_bind h fun _ verified => ?_
  refine ends_lift_bind h fun _ _ => ?_
  refine Ends.ite (fun _ => pure h) fun _ => ?_
  refine ends_lift_bind h fun _ scope => ?_
  obtain ⟨members, -⟩ := validateRosterScope_eq_ok scope
  exact (activateRoster_after h h rfl verified (.inr ⟨rfl, members⟩)).seq
    fun _ t ht => pure ht

theorem handleRosterAcceptance_after {acceptance : HandRosterAcceptance}
    (h : After P identity (some (.rosterAcceptance acceptance)) start s) :
    Ends (After P identity (some (.rosterAcceptance acceptance)) start) s
      (handleRosterAcceptance P source acceptance now) := by
  unfold handleRosterAcceptance
  apply ends_getActive
  refine Ends.ite (fun _ => pure h) fun _ => ?_
  refine ends_someOr_bind h fun pending _ => ?_
  refine ends_lift_bind h fun _ _ => ?_
  refine ends_someOr_bind h fun endpoint _ => ?_
  refine ends_lift_bind h fun _ _ => ?_
  apply ends_update_bind
  exact pure (h.silent (.collectRoster acceptance rfl rfl))

/-- Right after a vote the clock of the voter stands at the roster's hand. -/
theorem adoptClock_nextHandNumber (scope : a.nextHandNumber = signed.handNumber ∨
      (a.handClockKnown = false ∧ a.nextHandNumber < signed.handNumber)) :
    (a.adoptClock signed.proposal.readyRoster).nextHandNumber = signed.handNumber := by
  unfold ActiveSession.adoptClock
  split
  · rfl
  · rename_i hlater
    exact scope.resolve_right hlater

theorem consensus_adoptClock (a : ActiveSession) (roster : ReadyHandRoster) :
    (a.adoptClock roster).consensus = { a.consensus with
      handClockKnown := true
      nextHandNumber := (a.adoptClock roster).nextHandNumber
      previousReceiptHash := (a.adoptClock roster).previousReceiptHash } := by
  unfold ActiveSession.adoptClock
  split <;> rfl

theorem handleRosterProposal_after (h : After P identity received start s) :
    Ends (After P identity received start) s
      (handleRosterProposal P identity source signed now) := by
  unfold handleRosterProposal
  apply ends_getActive
  refine Ends.ite (fun _ => pure h) fun _ => ?_
  refine ends_lift_bind h fun _ _ => ?_
  refine ends_lift_bind h fun _ scope => ?_
  obtain ⟨members, scope⟩ := validateRosterScope_eq_ok scope
  refine ends_someOr_bind h fun coordinator _ => ?_
  refine ends_lift_bind h fun _ _ => ?_
  have later : s.active.nextHandNumber = signed.handNumber ∨
      s.active.nextHandNumber < signed.handNumber := scope.imp id And.right
  rcases acceptRosterProposal_cases identity signed now s with
    hsame | ⟨claimId, acceptance, hlocal, issued, hrun⟩
  · have hsame : Ends (· = s) s
        (acceptRosterProposal P identity.device identity.certificate signed now) := hsame
    refine hsame.bind (fun t ht => ht ▸ h) fun _ t ht => ?_
    subst ht
    refine Ends.ite (fun _ => ?_) fun _ => pure h
    apply ends_update_bind
    have adopted := consensus_adoptClock t.active signed.proposal.readyRoster
    rw [adoptClock_nextHandNumber scope] at adopted
    exact pure (h.silent (.adoptClock signed.handNumber _ later adopted))
  · unfold Ends
    rw [run_bind_ok hrun, if_pos hlocal]
    have adopted := consensus_adoptClock (s.active.withRosterVote signed acceptance)
      signed.proposal.readyRoster
    rw [adoptClock_nextHandNumber (a := s.active.withRosterVote signed acceptance) scope] at adopted
    exact h.move (.voteRoster signed claimId now acceptance true _ later members issued adopted)

theorem dispatchMessage_after (h : After P identity (some message) start s) :
    Ends (After P identity (some message) start) s
      (dispatchMessage P identity source message now nowMonotonic) := by
  cases message with
  | joinIntent intent => exact handleJoinIntent_after h
  | leaveIntent intent => exact handleLeaveIntent_after h
  | membershipProposal signed => exact handleMembershipProposal_after h
  | membershipAcceptance acceptance => exact handleMembershipAcceptance_after h
  | rosterProposal signed => exact handleRosterProposal_after h
  | rosterAcceptance acceptance => exact handleRosterAcceptance_after h
  | certifiedMembership confirmed => exact handleCertifiedMembership_after h
  | certifiedRoster confirmed => exact handleCertifiedRoster_after h

theorem handleMessage_after (h : After P identity (some message) start s) :
    Ends (After P identity (some message) start) s
      (handleMessage P identity source message now nowMonotonic) := by
  unfold handleMessage
  refine (dispatchMessage_after h).seq fun proceed t ht => ?_
  refine Ends.ite (fun _ => ?_) fun _ => pure ht
  refine (finalizeMembershipIfReady_after ht).seq fun _ t ht => ?_
  refine (maybeProposeRoster_after ht).seq fun _ t ht => ?_
  exact finalizeRosterIfReady_after ht

end

/-! ## Leaving -/

theorem requestLeave_after {nonce : FixedBytes 16} (h : After P identity received start s) :
    Ends (After P identity received start) s (requestLeave P identity now nowMonotonic nonce) := by
  unfold requestLeave
  apply ends_getActive
  refine Ends.ite (fun _ => pure h) fun _ => ?_
  refine ends_someOr_bind h fun expiresAt _ => ?_
  refine ends_someOr_bind h fun _ _ => ?_
  refine ends_lift_bind h fun intent _ => ?_
  apply ends_record_bind
  refine ends_quiet_bind (h.note (.leaveIntent intent)) (fun _ => rfl) fun t _ ht => ?_
  refine (deliverConsensusMessage_resting ⟨ht, rfl⟩ (by nofun) (by nofun)).bind
    (fun _ ht => ht.1) fun _ t ht => ?_
  refine ends_quiet_bind ht.1 (fun _ => rfl) fun t _ ht => ?_
  refine Ends.ite (fun _ => pure ht) fun _ => ?_
  exact ends_update (ht.silent (.forgetMembership rfl))

theorem forceLocalLeaveIfDue_after {handStalled : Bool} (h : After P identity received start s) :
    Ends (After P identity received start) s (forceLocalLeaveIfDue handStalled nowMonotonic) := by
  unfold forceLocalLeaveIfDue
  apply ends_getActive
  refine Ends.ite (fun _ => pure h) fun _ => ?_
  refine ends_someOr_bind h fun startedAt _ => ?_
  refine Ends.ite (fun _ => pure h) fun _ => ?_
  exact ends_quiet h fun _ => rfl

end

/-! ## Entering a table -/

/-- The agreement of a session that has just joined. -/
def Consensus.blank (tableId : TableId) (level : StakeLevel) : Consensus where
  tableId := tableId
  level := level
  membership := none
  membershipCertificate := none
  pendingMembership := none
  membershipAcceptances := ∅
  localMembershipAcceptance := none
  pendingRoster := none
  activeRoster := none
  rosterCertificate := none
  rosterAcceptances := ∅
  localRosterAcceptance := none
  handActive := false
  handClockKnown := false
  nextHandNumber := 1
  previousReceiptHash := none

/-- How a session starts: at a table it creates, whose first membership it votes
for and activates on its own, or at a table it joins. -/
inductive Entry (P : Primitives) (identity : LocalIdentity) (tableId : TableId)
    (level : StakeLevel) : ActiveSession → List Effect → Prop
  | created {a} (localJoin : JoinIntent) (claimId : JoinClaimId) (now : UInt64)
      (acceptance : MembershipAcceptance) (confirmed : CertifiedMembership)
      (issued : MembershipAcceptance.issue P confirmed.proposal claimId now identity.device
        identity.certificate = .ok acceptance)
      (sameLevel : confirmed.proposal.proposal.level = level)
      (verified : confirmed.verifyAt P now = .ok ())
      (own : ∀ other ∈ confirmed.acceptances, other = acceptance)
      (state : a.consensus = { Consensus.blank tableId level with
        membership := some confirmed.proposal, membershipCertificate := some confirmed
        handClockKnown := true }) :
      Entry P identity tableId level a [.entered, .signed (.joinIntent localJoin),
        .signed (.membershipProposal confirmed.proposal),
        .signed (.membershipAcceptance confirmed.proposal acceptance),
        .activatedMembership none confirmed]
  | joined {a} (localJoin : JoinIntent) (state : a.consensus = Consensus.blank tableId level) :
      Entry P identity tableId level a [.entered, .signed (.joinIntent localJoin)]

namespace TableSession

variable {P : Primitives} {identity : LocalIdentity}

variable {tableId : TableId} {ticket : PoolTicket} {now : UInt64} {nonce : FixedBytes 16}
  {creatorPlayerId : PlayerId} {running : Running}

theorem issueJoinIntent_eq_ok {intent : JoinIntent}
    (h : issueJoinIntent P tableId ticket identity now nonce = .ok intent) :
    intent.level = ticket.level := by
  unfold issueJoinIntent at h
  obtain ⟨expiry, -, h⟩ := okOr_bind_eq_ok.mp h
  rw [mapError_eq_ok_iff] at h
  unfold JoinIntent.level
  rw [JoinIntent.issue_eq_ok h]

theorem create_entry
    (h : create P identity tableId creatorPlayerId ticket now nonce = .ok running) :
    Entry P identity tableId ticket.level running.active running.trace := by
  unfold create at h
  obtain ⟨localJoin, hjoin, h⟩ := bind_eq_ok.mp h
  obtain ⟨seat, -, h⟩ := bind_eq_ok.mp h
  obtain ⟨proposal, assembled, h⟩ := bind_eq_ok.mp h
  obtain ⟨signed, proposed, h⟩ := bind_eq_ok.mp h
  obtain ⟨acceptance, issued, h⟩ := bind_eq_ok.mp h
  obtain ⟨confirmed, certified, h⟩ := bind_eq_ok.mp h
  rw [mapError_eq_ok_iff] at assembled proposed issued certified
  have hlevel := issueJoinIntent_eq_ok hjoin
  obtain ⟨rfl, verified, own⟩ := CertifiedMembership.assemble_eq_ok certified
  cases h
  refine .created localJoin _ now acceptance confirmed issued ?_ verified
    (fun other hmem => mem_singleton.mp (own other hmem)) ?_
  · rw [SignedMembershipProposal.issue_eq_ok proposed,
      (MembershipProposal.assemble_eq_ok assembled).2.1, hlevel]
  · rw [← hlevel]
    rfl

theorem join_entry {admissionPeerId : Bytes} {admissionAddresses : List Bytes}
    (h : join P identity tableId creatorPlayerId admissionPeerId admissionAddresses ticket now nonce
      = .ok running) : Entry P identity tableId ticket.level running.active running.trace := by
  unfold join at h
  obtain ⟨recipient, -, h⟩ := bind_eq_ok.mp h
  obtain ⟨-, h⟩ := ensure_bind_eq_ok.mp h
  obtain ⟨localJoin, hjoin, h⟩ := bind_eq_ok.mp h
  obtain ⟨desired, -, h⟩ := bind_eq_ok.mp h
  cases h
  refine .joined localJoin ?_
  rw [← issueJoinIntent_eq_ok hjoin]
  rfl

/-! ## Commands -/

/-- The message a command hands to the session. -/
def Command.received : Command → Option RoomWireMessage
  | .message _ payload _ _ => some payload
  | _ => none

/-- Whether a command enters a table, and which one. -/
def Command.Enters (tableId : TableId) (level : StakeLevel) : Command → Prop
  | .create table _ ticket _ _ => table = tableId ∧ ticket.level = level
  | .join table _ _ _ ticket _ _ => table = tableId ∧ ticket.level = level
  | _ => False

theorem Command.call_entry {command : Command}
    (hcall : command.call P identity = .enter (.ok running)) :
    ∃ tableId level, command.Enters tableId level ∧
      Entry P identity tableId level running.active running.trace := by
  cases command with
  | create =>
    injection hcall with hcall
    exact ⟨_, _, ⟨rfl, rfl⟩, create_entry hcall⟩
  | join =>
    injection hcall with hcall
    exact ⟨_, _, ⟨rfl, rfl⟩, join_entry hcall⟩
  | _ => cases hcall

theorem Command.call_after {command : Command} {call : SessionM Unit} {active : ActiveSession}
    (hcall : command.call P identity = .run call) :
    Ends (After P identity command.received active) ⟨active, []⟩ call := by
  have h : After P identity command.received active ⟨active, []⟩ := .refl
  cases command with
  | create => cases hcall
  | join => cases hcall
  | close => cases hcall
  | tick => cases hcall; exact tick_after h
  | message => cases hcall; exact handleMessage_after h
  | requestLeave => cases hcall; exact requestLeave_after h
  | forceLocalLeaveIfDue => cases hcall; exact forceLocalLeaveIfDue_after h
  | handBoundary => cases hcall; exact finishHandBoundary_after h
  | peerConnected => cases hcall; exact ends_quiet h fun _ => rfl
  | peerDisconnected =>
    cases hcall
    refine ends_quiet h fun active => ?_
    split <;> rfl
  | adoptExplicitPeers => cases hcall; exact ends_quiet h fun _ => rfl
  | takeReadyTable =>
    cases hcall
    refine ends_quiet h fun active => ?_
    split <;> rfl
  | takeLeaveCompleted => cases hcall; exact ends_quiet h fun _ => rfl

/-- What a command does to a session: it starts one, moves the one there is, or
leaves it or drops it without any effect. -/
theorem step_moves (command : Command) (session : Option ActiveSession) :
    (∃ tableId level active effects, command.Enters tableId level ∧
        Entry P identity tableId level active effects ∧
        step P identity command session = (some active, effects)) ∨
      (∃ active next effects, session = some active ∧
        Moves P identity command.received active effects next ∧
        step P identity command session = (some next, effects)) ∨
      step P identity command session = (session, []) ∨
      step P identity command session = (none, []) := by
  unfold step
  cases hcall : command.call P identity with
  | enter result =>
    cases result with
    | ok running =>
      obtain ⟨tableId, level, enters, entry⟩ := Command.call_entry hcall
      exact .inl ⟨tableId, level, running.active, running.trace, enters, entry, rfl⟩
    | error e => exact .inr (.inr (.inl rfl))
  | run call =>
    cases session with
    | none => exact .inr (.inr (.inl rfl))
    | some active => exact .inr (.inl ⟨active, _, _, rfl, Command.call_after hcall, rfl⟩)
  | drop => exact .inr (.inr (.inr rfl))

end TableSession

end TokenHoldem
