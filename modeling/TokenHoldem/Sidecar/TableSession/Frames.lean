import TokenHoldem.Sidecar.TableSession.Runtime

/-!
# What a call leaves alone

The parts of a call are about the agreement on memberships and rosters. They do not
touch the local leave, and only the end of a hand is recorded as one:

- `Running.aside` — the local leave and the ends of hands, which every part but a
  request to leave and the end of a hand keeps;
- `Running.steady` — the pending membership besides, which is kept by the parts
  that are about rosters and about sending;
- `tick_leave`, `handleMessage_leave` — whole calls keep the local leave.
-/

namespace TokenHoldem

open Library SessionM Prod

/-- How a hand ends in the trace of a call. -/
inductive HandEnding where
  | aborted (abandonment : SignedLeaveAbandonment)
  | boundary (evidenceHash : Bytes32)

/-- The end of a hand that an effect records. -/
def Effect.ending? : Effect → Option HandEnding
  | .handAborted abandonment => some (.aborted abandonment)
  | .boundary _ evidenceHash => some (.boundary evidenceHash)
  | _ => none

namespace Running

variable (s : Running)

/-- The pending membership of a session in the middle of a call. -/
def pending : Option SignedMembershipProposal := s.active.pendingMembership

/-- The leave the local player has asked for, and when. -/
def leave : Option LeaveIntent × Option Nat :=
  (s.active.localLeave, s.active.localLeaveStartedAt)

/-- The ends of hands a call has recorded so far. -/
def endings : List HandEnding := s.trace.filterMap Effect.ending?

/-- What all but leaving and ending a hand keep. -/
def aside : (Option LeaveIntent × Option Nat) × List HandEnding :=
  (s.leave, s.endings)

/-- What rosters and sending keep. -/
def steady :
    Option SignedMembershipProposal × (Option LeaveIntent × Option Nat) × List HandEnding :=
  (s.pending, s.aside)

variable {effect : Effect}

/-- Other effects record no end. -/
theorem endings_record (s : Running) (plain : effect.ending? = none) :
    endings { s with trace := s.trace ++ [effect] } = s.endings := by
  simp [endings, List.filterMap_append, plain]

theorem keeps_aside (plain : effect.ending? = none) : Keeps aside (record effect) :=
  keeps_record fun s => congrArg (Prod.mk s.leave) (endings_record s plain)

theorem keeps_steady (plain : effect.ending? = none) : Keeps steady (record effect) :=
  keeps_record fun s => congrArg (fun endings => (s.pending, s.leave, endings))
    (endings_record s plain)

end Running

open Running

variable {P : Primitives} {identity : LocalIdentity} {device : DeviceIdentity}
  {certificate : DeviceCertificate} {now : UInt64} {nowMonotonic : Nat}

/-! ## Rosters and sending -/

theorem acceptRosterProposal_steady {signed : SignedHandRosterProposal} :
    Keeps steady (acceptRosterProposal P device certificate signed now) := by
  unfold acceptRosterProposal
  refine keeps_getActive_bind fun active => ?_
  split
  · exact .pure _
  · refine .ite (keeps_lift.bind fun _ => ?_) (.pure _)
    refine (keeps_steady rfl).bind fun _ => ?_
    exact (keeps_steady rfl).bind fun _ => keeps_update fun _ => rfl

theorem maybeProposeRoster_steady :
    Keeps steady (maybeProposeRoster P device certificate now nowMonotonic) := by
  unfold maybeProposeRoster
  refine keeps_getActive_bind fun active => ?_
  refine .ite (.pure _) ?_
  split
  · exact .pure _
  · refine .ite (keeps_update fun _ => rfl) ?_
    refine (keeps_update fun _ => rfl).bind fun _ => ?_
    refine .ite (.pure _) ?_
    refine keeps_someOr.bind fun _ => ?_
    refine .ite (.pure _) ?_
    refine keeps_lift.bind fun _ => keeps_lift.bind fun _ => ?_
    refine keeps_lift.bind fun _ => keeps_lift.bind fun _ => ?_
    exact (keeps_steady rfl).bind fun _ => acceptRosterProposal_steady

theorem activateRoster_steady {confirmed : CertifiedRoster} :
    Keeps steady (activateRoster P confirmed) := by
  unfold activateRoster
  refine keeps_getActive_bind fun active => keeps_lift.bind fun _ => ?_
  exact (keeps_steady rfl).bind fun _ => keeps_update fun _ => rfl

theorem finalizeRosterIfReady_steady : Keeps steady (finalizeRosterIfReady P now) := by
  unfold finalizeRosterIfReady
  refine keeps_getActive_bind fun active => ?_
  split
  · exact .pure _
  · refine .ite ?_ (.pure _)
    refine (keeps_update fun _ => rfl).bind fun _ => keeps_lift.bind fun _ => ?_
    exact activateRoster_steady

theorem synchronizeExplicitSessionPeers_steady {localPeerId : PeerId} :
    Keeps steady (synchronizeExplicitSessionPeers P localPeerId) := by
  unfold synchronizeExplicitSessionPeers
  refine keeps_getActive_bind fun active => .ite (.pure _) ?_
  exact keeps_lift.bind fun _ => keeps_update fun _ => rfl

theorem deliverConsensusMessage_steady {message : RoomWireMessage}
    {recipients : Except SessionError (List DirectRoomRecipient)} :
    Keeps steady (deliverConsensusMessage message recipients) :=
  keeps_lift.bind fun _ => keeps_steady rfl

theorem publishActiveMessages_steady : Keeps steady (publishActiveMessages P nowMonotonic) := by
  have hroster : Keeps steady (publishRosterCertificate P) := by
    refine keeps_getActive_bind fun active => ?_
    split
    · exact .pure _
    · exact deliverConsensusMessage_steady
  have hmembership : Keeps steady (publishMembershipCertificate P) := by
    refine keeps_getActive_bind fun active => ?_
    split
    · exact .pure _
    · exact keeps_lift.bind fun _ => deliverConsensusMessage_steady
  have hleave : ∀ active, Keeps steady (publishLeave P active) := by
    intro active
    unfold publishLeave
    split
    · exact .pure _
    · exact deliverConsensusMessage_steady
  have hproposal : ∀ active, Keeps steady (publishMembershipProposal P active) := by
    intro active
    unfold publishMembershipProposal
    split
    · exact .pure _
    · exact keeps_lift.bind fun _ => .ite deliverConsensusMessage_steady (.pure _)
  have hacceptance : ∀ active, Keeps steady (publishMembershipAcceptance P active) := by
    intro active
    unfold publishMembershipAcceptance
    split
    · exact keeps_lift.bind fun _ => deliverConsensusMessage_steady
    · exact .pure _
  have hrosterProposal : ∀ active, Keeps steady (publishRosterProposal P active) := by
    intro active
    unfold publishRosterProposal
    split
    · exact .pure _
    · exact .ite deliverConsensusMessage_steady (.pure _)
  have hrosterAcceptance : ∀ active, Keeps steady (publishRosterAcceptance P active) := by
    intro active
    unfold publishRosterAcceptance
    split
    · exact deliverConsensusMessage_steady
    · exact .pure _
  refine hroster.bind fun _ => hmembership.bind fun _ => keeps_getActive_bind fun active => ?_
  refine .ite ?_ (.pure _)
  refine (keeps_steady rfl).bind fun _ => (hleave active).bind fun _ => ?_
  refine (hproposal active).bind fun _ => (hacceptance active).bind fun _ => ?_
  refine (hrosterProposal active).bind fun _ => (hrosterAcceptance active).bind fun _ => ?_
  exact keeps_update fun _ => rfl

/-! ## Memberships -/

theorem acceptMembershipProposal_aside {signed : SignedMembershipProposal} :
    Keeps aside (acceptMembershipProposal P device certificate signed now) := by
  unfold acceptMembershipProposal
  refine keeps_getActive_bind fun active => .ite ?_ (.pure _)
  refine (keeps_aside rfl).bind fun _ => (keeps_update fun _ => rfl).bind fun _ => ?_
  split
  · exact .pure _
  · refine keeps_lift.bind fun _ => (keeps_aside rfl).bind fun _ => ?_
    exact keeps_update fun _ => rfl

theorem maybeProposeMembership_aside :
    Keeps aside (maybeProposeMembership P device certificate now) := by
  unfold maybeProposeMembership
  refine keeps_getActive_bind fun active => ?_
  split
  · exact .pure _
  · exact .pure _
  · refine .ite (.pure _) (keeps_lift.bind fun _ => .ite (.pure _) ?_)
    refine keeps_someOr.bind fun _ => .ite (.pure _) (.ite (.pure _) ?_)
    refine keeps_lift.bind fun _ => keeps_lift.bind fun _ => ?_
    refine (keeps_aside rfl).bind fun _ => (keeps_aside rfl).bind fun _ => ?_
    exact acceptMembershipProposal_aside

theorem activateMembership_aside {confirmed : CertifiedMembership} :
    Keeps aside (activateMembership confirmed nowMonotonic) := by
  unfold activateMembership
  refine keeps_getActive_bind fun active => ?_
  exact (keeps_aside rfl).bind fun _ => keeps_update fun _ => rfl

theorem finalizeMembershipIfReady_aside :
    Keeps aside (finalizeMembershipIfReady P now nowMonotonic) := by
  unfold finalizeMembershipIfReady
  refine keeps_getActive_bind fun active => ?_
  split
  · exact .pure _
  · refine .ite ?_ (.pure _)
    refine (keeps_update fun _ => rfl).bind fun _ => keeps_lift.bind fun _ => ?_
    exact activateMembership_aside

variable {sessionAddresses : List Bytes} {nonces : Nonces}

theorem renewLocalJoin_aside :
    Keeps aside (renewLocalJoin P identity sessionAddresses now nonces) := by
  unfold renewLocalJoin
  refine keeps_getActive_bind fun active => .ite ?_ (.pure _)
  refine keeps_lift.bind fun _ => (keeps_aside rfl).bind fun _ => ?_
  exact keeps_lift.bind fun _ => (keeps_aside rfl).bind fun _ => keeps_update fun _ => rfl

/-- A renewal changes nothing but the join intents. -/
theorem renewLocalJoin_eq_ok {s t : Running}
    (h : (renewLocalJoin P identity sessionAddresses now nonces).run s = .ok () t) :
    ∃ localJoin joins, t.active = { s.active with localJoin := localJoin, joins := joins } := by
  unfold renewLocalJoin at h
  rw [run_getActive_bind] at h
  split at h
  · obtain ⟨ticket, t₁, hticket, h⟩ := run_bind_eq_ok_iff.mp h
    obtain ⟨_, t₂, hrecord, h⟩ := run_bind_eq_ok_iff.mp h
    obtain ⟨renewed, t₃, hrenewed, h⟩ := run_bind_eq_ok_iff.mp h
    obtain ⟨_, t₄, hrecord', h⟩ := run_bind_eq_ok_iff.mp h
    obtain ⟨-, rfl⟩ := run_lift_eq_ok.mp hticket
    obtain ⟨-, rfl⟩ := run_lift_eq_ok.mp hrenewed
    cases hrecord
    cases hrecord'
    cases h
    exact ⟨_, _, rfl⟩
  · cases h
    exact ⟨_, _, rfl⟩

/-- The part of a tick after the abandonment of a hand. -/
def tickAgreement (P : Primitives) (identity : LocalIdentity) (now : UInt64) (nowMonotonic : Nat) :
    SessionM Unit := do
  maybeProposeMembership P identity.device identity.certificate now
  finalizeMembershipIfReady P now nowMonotonic
  maybeProposeRoster P identity.device identity.certificate now nowMonotonic
  finalizeRosterIfReady P now
  synchronizeExplicitSessionPeers P identity.peerId
  publishActiveMessages P nowMonotonic

theorem tickAgreement_aside : Keeps aside (tickAgreement P identity now nowMonotonic) := by
  unfold tickAgreement
  refine maybeProposeMembership_aside.bind fun _ => ?_
  refine finalizeMembershipIfReady_aside.bind fun _ => ?_
  refine (maybeProposeRoster_steady.comp snd).bind fun _ => ?_
  refine (finalizeRosterIfReady_steady.comp snd).bind fun _ => ?_
  refine (synchronizeExplicitSessionPeers_steady.comp snd).bind fun _ => ?_
  exact publishActiveMessages_steady.comp snd

/-! ## Whole calls -/

/-- The end of a hand does not answer a wish to leave. -/
theorem finishHandBoundary_leave {evidenceHash : Bytes32} {dealerSeat : PhysicalSeat} :
    Keeps leave (finishHandBoundary evidenceHash dealerSeat nowMonotonic) := by
  unfold finishHandBoundary
  refine keeps_getActive_bind fun before => keeps_check.bind fun _ => ?_
  refine (keeps_update fun _ => rfl).bind fun _ => keeps_someOr.bind fun _ => ?_
  exact (keeps_record fun _ => rfl).bind fun _ => keeps_update fun _ => rfl

theorem abandonHandIfLeaverGone_leave : Keeps leave (abandonHandIfLeaverGone P nowMonotonic) := by
  unfold abandonHandIfLeaverGone
  refine keeps_getActive_bind fun active => ?_
  split
  · exact .pure _
  · exact (keeps_record fun _ => rfl).bind fun _ => finishHandBoundary_leave

/-- A tick keeps the local leave, -/
theorem tick_leave : Keeps leave (tick P identity sessionAddresses now nowMonotonic nonces) := by
  refine (renewLocalJoin_aside.comp fst).bind fun _ => ?_
  refine (keeps_update fun _ => rfl).bind fun _ => ?_
  refine abandonHandIfLeaverGone_leave.bind fun _ => ?_
  have hrest : Keeps aside (tickAgreement P identity now nowMonotonic) := tickAgreement_aside
  exact hrest.comp fst

theorem forceLocalLeaveIfDue_leave {handStalled : Bool} :
    Keeps leave (forceLocalLeaveIfDue handStalled nowMonotonic) := by
  unfold forceLocalLeaveIfDue
  refine keeps_getActive_bind fun active => .ite (.pure _) (keeps_someOr.bind fun _ => ?_)
  exact .ite (.pure _) (keeps_update fun _ => rfl)

/-- A leave that is asked for is noted with the time, and the rest of the call keeps
it. -/
theorem requestLeave_eq_ok {s t : Running} {nonce : FixedBytes 16}
    (hrun : (requestLeave P identity now nowMonotonic nonce).run s = .ok () t)
    (hfirst : s.active.localLeave = none) : ∃ expiresAt signed, LeaveIntent.issue P s.active.tableId
        (if s.active.handActive then some s.active.nextHandNumber else none)
        ((s.active.membership.map fun signed => signed.proposal.membershipVersion).getD 1)
        now expiresAt nonce identity.device identity.certificate = .ok signed ∧
      t.leave = (some signed, some nowMonotonic) := by
  unfold requestLeave at hrun
  rw [run_getActive_bind, hfirst] at hrun
  obtain ⟨expiresAt, _, hexpiry, hrun⟩ := run_bind_eq_ok_iff.mp hrun
  obtain ⟨_, _, hforce, hrun⟩ := run_bind_eq_ok_iff.mp hrun
  obtain ⟨signed, _, hissued, hrun⟩ := run_bind_eq_ok_iff.mp hrun
  obtain ⟨_, _, hrecord, hrun⟩ := run_bind_eq_ok_iff.mp hrun
  obtain ⟨_, s₁, hupdate, hrun⟩ := run_bind_eq_ok_iff.mp hrun
  have hnoted : s₁.leave = (some signed, some nowMonotonic) := by
    cases hupdate
    rfl
  refine ⟨expiresAt, signed, (run_lift_eq_ok.mp hissued).1, ?_⟩
  rw [← hnoted]
  refine Keeps.of_ok ?_ hrun
  refine (deliverConsensusMessage_steady.comp fun kept => kept.2.1).bind fun _ => ?_
  refine (keeps_update fun _ => rfl).bind fun _ => ?_
  exact .ite (.pure _) (keeps_update fun _ => rfl)

section

variable {source : Option PeerId}

variable {message : RoomWireMessage}

/-- No message changes the local leave. -/
theorem dispatchMessage_leave :
    Keeps leave (dispatchMessage P identity source message now nowMonotonic) := by
  cases message with
  | joinIntent intent =>
    refine keeps_getActive_bind fun _ => keeps_lift.bind fun _ => keeps_lift.bind fun _ => ?_
    exact keeps_lift.bind fun _ => (keeps_update fun _ => rfl).bind fun _ => .pure _
  | leaveIntent intent =>
    refine keeps_getActive_bind fun _ => keeps_lift.bind fun _ => keeps_check.bind fun _ => ?_
    exact keeps_lift.bind fun _ => (keeps_update fun _ => rfl).bind fun _ => .pure _
  | membershipProposal signed =>
    refine keeps_getActive_bind fun _ => .ite (.pure _) (keeps_lift.bind fun _ => ?_)
    refine keeps_lift.bind fun _ => keeps_someOr.bind fun _ => keeps_lift.bind fun _ => ?_
    refine (keeps_update fun _ => rfl).bind fun _ => ?_
    exact (acceptMembershipProposal_aside.comp fst).bind fun _ => .pure _
  | membershipAcceptance acceptance =>
    refine keeps_getActive_bind fun _ => .ite (.pure _) (keeps_someOr.bind fun _ => ?_)
    refine keeps_lift.bind fun _ => keeps_someOr.bind fun _ => keeps_lift.bind fun _ => ?_
    exact (keeps_update fun _ => rfl).bind fun _ => .pure _
  | certifiedMembership confirmed =>
    refine keeps_getActive_bind fun _ => .ite (.pure _) (keeps_lift.bind fun _ => ?_)
    refine keeps_lift.bind fun _ => keeps_lift.bind fun _ => ?_
    refine (keeps_update fun _ => rfl).bind fun _ => ?_
    exact (activateMembership_aside.comp fst).bind fun _ => .pure _
  | rosterProposal signed =>
    refine keeps_getActive_bind fun _ => .ite (.pure _) (keeps_lift.bind fun _ => ?_)
    refine keeps_lift.bind fun _ => keeps_someOr.bind fun _ => keeps_lift.bind fun _ => ?_
    refine (acceptRosterProposal_steady.comp fun kept => kept.2.1).bind fun _ => ?_
    refine .ite ((keeps_update fun s => ?_).bind fun _ => .pure _) (.pure _)
    unfold ActiveSession.adoptClock
    split <;> rfl
  | rosterAcceptance acceptance =>
    refine keeps_getActive_bind fun _ => .ite (.pure _) (keeps_someOr.bind fun _ => ?_)
    refine keeps_lift.bind fun _ => keeps_someOr.bind fun _ => keeps_lift.bind fun _ => ?_
    exact (keeps_update fun _ => rfl).bind fun _ => .pure _
  | certifiedRoster confirmed =>
    refine keeps_getActive_bind fun _ => .ite (.pure _) (keeps_lift.bind fun _ => ?_)
    refine keeps_lift.bind fun _ => .ite (.pure _) (keeps_lift.bind fun _ => ?_)
    exact (activateRoster_steady.comp fun kept => kept.2.1).bind fun _ => .pure _

/-- and so does a message. -/
theorem handleMessage_leave :
    Keeps leave (handleMessage P identity source message now nowMonotonic) := by
  refine dispatchMessage_leave.bind fun _ => .ite ?_ (.pure _)
  refine (finalizeMembershipIfReady_aside.comp fst).bind fun _ => ?_
  refine (maybeProposeRoster_steady.comp fun kept => kept.2.1).bind fun _ => ?_
  exact finalizeRosterIfReady_steady.comp fun kept => kept.2.1

end

end TokenHoldem
