import TokenHoldem.Sidecar.TableSession.Frames
import TokenHoldem.Sidecar.TableSession.World

/-!
# Proposals that run out

A pending membership proposal keeps a session from proposing another one and
from starting a hand. It is only as good as the join intents in it, which expire.
This file says what becomes of it in a tick: a tick throws away expired join and
leave intents, but it drops a pending proposal only when it abandons a hand, so
a proposal that has run out stays pending (`tick_pending_iff`).
-/

namespace TokenHoldem

open Library SessionM

variable {P : Primitives} {identity : LocalIdentity} {s t : Running} {now : UInt64}
  {nowMonotonic : Nat}

/-- The tick abandons the hand: among the leave intents that have not run out
there is one of a player who has been gone long enough. -/
def AbandonsHand (P : Primitives) (active : ActiveSession) (now : UInt64) (nowMonotonic : Nat) :
    Prop :=
  (signedDisconnectedLeaver P { active with
    leaves := active.leaves.filter fun _ intent => isOk (intent.verifyAt P now) }
    nowMonotonic).isSome = true
deriving Decidable

/-! ## What the parts of a tick do to the pending proposal -/

theorem finishHandBoundary_eq_ok {evidenceHash : Bytes32} {dealerSeat : PhysicalSeat}
    (h : (finishHandBoundary evidenceHash dealerSeat nowMonotonic).run s = .ok () t) :
    t.active.pendingMembership = none := by
  unfold finishHandBoundary at h
  rw [run_getActive_bind] at h
  obtain ⟨_, _, -, h⟩ := run_bind_eq_ok_iff.mp h
  obtain ⟨_, _, -, h⟩ := run_bind_eq_ok_iff.mp h
  obtain ⟨_, _, -, h⟩ := run_bind_eq_ok_iff.mp h
  obtain ⟨_, _, -, h⟩ := run_bind_eq_ok_iff.mp h
  cases h
  rfl

theorem abandonHandIfLeaverGone_eq_ok
    (h : (abandonHandIfLeaverGone P nowMonotonic).run s = .ok () t) :
    if (signedDisconnectedLeaver P s.active nowMonotonic).isSome then
      t.active.pendingMembership = none else t = s := by
  unfold abandonHandIfLeaverGone at h
  rw [run_getActive_bind] at h
  cases hleaver : signedDisconnectedLeaver P s.active nowMonotonic with
  | none =>
    rw [hleaver] at h
    cases h
    rfl
  | some abandonment =>
    rw [hleaver] at h
    obtain ⟨_, t₁, -, h⟩ := run_bind_eq_ok_iff.mp h
    exact finishHandBoundary_eq_ok h

/-- Accepting a proposal makes it the pending one, or keeps the pending one. -/
theorem acceptMembershipProposal_pending {signed : SignedMembershipProposal}
    {device : DeviceIdentity}
    {certificate : DeviceCertificate} :
    Ends (fun t => t.active.pendingMembership = s.active.pendingMembership ∨
      t.active.pendingMembership = some signed) s
      (acceptMembershipProposal P device certificate signed now) := by
  unfold acceptMembershipProposal
  apply ends_getActive
  refine Ends.ite (fun _ => ?_) fun _ => Ends.pure (.inl rfl)
  apply ends_record_bind
  apply ends_update_bind
  cases signed.proposal.seatByPlayer s.active.localJoin.playerId with
  | none => exact Ends.pure (.inr rfl)
  | some seat =>
    refine ends_lift_bind (.inr rfl) fun acceptance _ => ?_
    apply ends_record_bind
    exact ends_update (.inr rfl)

/-- A tick proposes a membership only if none is pending, and a verified one. -/
theorem maybeProposeMembership_pending (law : P.SignaturesVerify) :
    Ends (fun t => t.active.pendingMembership = s.active.pendingMembership ∨
      s.active.pendingMembership = none ∧
        ∀ p, t.active.pendingMembership = some p → p.verifyAt P now = .ok ()) s
      (maybeProposeMembership P identity.device identity.certificate now) := by
  unfold maybeProposeMembership
  apply ends_getActive
  split
  · exact Ends.pure (.inl rfl)
  · exact Ends.pure (.inl rfl)
  · rename_i membership hpending _
    refine Ends.ite (fun _ => Ends.pure (.inl rfl)) fun _ => ?_
    refine ends_lift_bind (.inl rfl) fun layout _ => ?_
    refine Ends.ite (fun _ => Ends.pure (.inl rfl)) fun _ => ?_
    refine ends_someOr_bind (.inl rfl) fun coordinator _ => ?_
    refine Ends.ite (fun _ => Ends.pure (.inl rfl)) fun _ => ?_
    refine Ends.ite (fun _ => Ends.pure (.inl rfl)) fun _ => ?_
    refine ends_lift_bind (.inl rfl) fun proposal _ => ?_
    refine ends_lift_bind (.inl rfl) fun signed issued => ?_
    apply ends_record_bind
    apply ends_record_bind
    refine acceptMembershipProposal_pending.imp fun t ht => ht.imp_right fun hnew => ?_
    refine ⟨hpending, fun p hp => ?_⟩
    obtain rfl : signed = p := Option.some.inj (hnew.symm.trans hp)
    exact SignedMembershipProposal.verifyAt_of_issue law issued

/-- A pending proposal is taken only when it verifies. -/
theorem finalizeMembershipIfReady_pending :
    Ends (fun t => t.active.pendingMembership = s.active.pendingMembership ∨
      t.active.pendingMembership = none ∧
        ∀ p, s.active.pendingMembership = some p → p.verifyAt P now = .ok ()) s
      (finalizeMembershipIfReady P now nowMonotonic) := by
  unfold finalizeMembershipIfReady
  apply ends_getActive
  split
  · exact Ends.pure (.inl rfl)
  · rename_i pending hpending
    refine Ends.ite (fun hready => ?_) fun _ => Ends.pure (.inl rfl)
    have hverified : ∀ p, s.active.pendingMembership = some p → p.verifyAt P now = .ok () := by
      intro p hp
      obtain rfl : pending = p := Option.some.inj (hpending.symm.trans hp)
      obtain ⟨_, hcomplete⟩ := isOk_eq_true.mp hready.2
      exact (verifyMembershipAcceptances_eq_ok hcomplete).1
    apply ends_update_bind
    refine ends_lift_bind (.inr ⟨rfl, hverified⟩) fun confirmed _ => ?_
    unfold activateMembership
    apply ends_getActive
    apply ends_record_bind
    exact ends_update (.inr ⟨rfl, hverified⟩)

/-! ## The tick -/

/-- What a tick that succeeds leaves pending: what was pending before, unless the
hand was abandoned or the proposal taken; or a proposal it has just made. -/
theorem tick_pending (law : P.SignaturesVerify) {sessionAddresses : List Bytes} {nonces : Nonces}
    (h : (tick P identity sessionAddresses now nowMonotonic nonces).run s = .ok () t) :
    t.active.pendingMembership = s.active.pendingMembership ∧
        ¬AbandonsHand P s.active now nowMonotonic ∨
      (∀ p, t.active.pendingMembership = some p → p.verifyAt P now = .ok ()) ∧
        (AbandonsHand P s.active now nowMonotonic ∨
          ∀ p, s.active.pendingMembership = some p → p.verifyAt P now = .ok ()) := by
  unfold tick at h
  obtain ⟨_, s₁, hrenew, h⟩ := run_bind_eq_ok_iff.mp h
  obtain ⟨_, s₂, hexpire, h⟩ := run_bind_eq_ok_iff.mp h
  obtain ⟨_, s₃, habandon, h⟩ := run_bind_eq_ok_iff.mp h
  obtain ⟨_, s₄, hpropose, h⟩ := run_bind_eq_ok_iff.mp h
  obtain ⟨_, s₅, hfinalize, h⟩ := run_bind_eq_ok_iff.mp h
  obtain ⟨_, s₆, hroster, h⟩ := run_bind_eq_ok_iff.mp h
  obtain ⟨_, s₇, hready, h⟩ := run_bind_eq_ok_iff.mp h
  obtain ⟨_, s₈, hpeers, hpublish⟩ := run_bind_eq_ok_iff.mp h
  -- the second half of the tick leaves the pending proposal alone
  have hlast : t.active.pendingMembership = s₅.active.pendingMembership :=
    congrArg Prod.fst <| (publishActiveMessages_steady.of_ok hpublish).trans <|
      (synchronizeExplicitSessionPeers_steady.of_ok hpeers).trans <|
      (finalizeRosterIfReady_steady.of_ok hready).trans (maybeProposeRoster_steady.of_ok hroster)
  obtain ⟨localJoin, joins, hrenewed⟩ := renewLocalJoin_eq_ok hrenew
  have hexpired : s₂.active = { s₁.active with
      joins := s₁.active.joins.filter fun _ intent => isOk (intent.verifyAt P now)
      leaves := s₁.active.leaves.filter fun _ intent => isOk (intent.verifyAt P now) } := by
    cases hexpire
    rfl
  have hpending : s₂.active.pendingMembership = s.active.pendingMembership := by
    rw [hexpired, hrenewed]
  have hleaver : (signedDisconnectedLeaver P s₂.active nowMonotonic).isSome = true ↔
      AbandonsHand P s.active now nowMonotonic := by
    rw [hexpired, hrenewed]
    exact Iff.rfl
  have habandoned := abandonHandIfLeaverGone_eq_ok habandon
  have hproposed := (maybeProposeMembership_pending law).of_ok hpropose
  have hfinalized := (finalizeMembershipIfReady_pending (P := P)).of_ok hfinalize
  rw [hlast]
  by_cases hgone : AbandonsHand P s.active now nowMonotonic
  · right
    rw [if_pos (hleaver.mpr hgone)] at habandoned
    refine ⟨fun p hp => ?_, .inl hgone⟩
    have hfour : s₄.active.pendingMembership = some p := by
      rcases hfinalized with hsame | ⟨hnone, -⟩
      · exact hsame.symm.trans hp
      · exact absurd (hnone.symm.trans hp) (by simp)
    rcases hproposed with hsame | ⟨-, hverified⟩
    · exact absurd (habandoned.symm.trans (hsame.symm.trans hfour)) (by simp)
    · exact hverified p hfour
  · rw [if_neg (hleaver.not.mpr hgone)] at habandoned
    have hthree : s₃.active.pendingMembership = s.active.pendingMembership := by
      rw [habandoned, hpending]
    rcases hproposed with hsame | ⟨hnone, hverified⟩
    · rcases hfinalized with hkept | ⟨htaken, hverified⟩
      · exact .inl ⟨hkept.trans (hsame.trans hthree), hgone⟩
      · refine .inr ⟨fun p hp => absurd (htaken.symm.trans hp) (by simp), .inr fun p hp => ?_⟩
        exact hverified p ((hsame.trans hthree).trans hp)
    · refine .inr ⟨fun p hp => ?_, .inr fun p hp => ?_⟩
      · rcases hfinalized with hkept | ⟨htaken, -⟩
        · exact hverified p (hkept.symm.trans hp)
        · exact absurd (htaken.symm.trans hp) (by simp)
      · exact absurd (hnone.symm.trans (hthree.trans hp)) (by simp)

namespace Room

variable {room : Room P} {w : room.World} {peer : room.Peer} {active : ActiveSession}

/-- A pending proposal was verified when it became pending. -/
theorem pending_verified (law : P.SignaturesVerify) {safe : Condition room}
    (h : Reach room.opened safe w) (hactive : (w peer).session = some active) :
    ∀ p, active.pendingMembership = some p → ∃ time, p.verifyAt P time = .ok () := by
  have hsessions := (Reach.by_sessions
    (I := fun active => ∀ p, active.consensus.pendingMembership = some p →
      ∃ time, p.verifyAt P time = .ok ()) (J := fun _ => True) ?enter ?move h).1
  case enter =>
    intro peer active effects entry
    refine ⟨fun p hp => ?_, fun _ _ => trivial⟩
    cases entry with
    | created _ _ _ _ _ _ _ _ _ state =>
      rw [state] at hp
      cases hp
    | joined _ state =>
      rw [state] at hp
      cases hp
  case move =>
    intro log peer received a effects b ih hmove _
    refine ⟨fun p hp => ?_, fun _ _ => trivial⟩
    rcases hmove.pendingMembership with hsame | hnone | ⟨signed, now, opening, -, hnew⟩
    · exact ih p (hsame.symm.trans hp)
    · exact absurd (hnone.symm.trans hp) (by simp)
    · obtain rfl := Option.some.inj (hnew.symm.trans hp)
      exact ⟨now, opening.verified law⟩
  exact hsessions peer active hactive

/-- After a tick every pending proposal verifies exactly when, before it, the
pending proposal is in force or the tick abandons the hand. Then nobody whose
join intent has run out is seated in a pending proposal. -/
theorem tick_pending_iff (law : P.SignaturesVerify) {safe : Condition room}
    (h : Reach room.opened safe w) (hactive : (w peer).session = some active)
    {sessionAddresses : List Bytes} {nonces : Nonces} {after : Running}
    (hrun : (tick P (room.identity peer) sessionAddresses now nowMonotonic nonces).run ⟨active, []⟩
      = .ok () after) :
    ((∀ p, after.active.pendingMembership = some p → p.verifyAt P now = .ok ()) ↔
      ∀ p, active.pendingMembership = some p →
        InForce p.windows now ∨ AbandonsHand P active now nowMonotonic) ∧
    ∀ p, after.active.pendingMembership = some p → p.verifyAt P now = .ok () →
      ∀ seat ∈ p.proposal.seats,
        isSignedTimeBeforeExpiry now seat.joinIntent.expiresAtUnixMs = true := by
  refine ⟨?_, fun p _ hverified => SignedMembershipProposal.before_expiry hverified⟩
  have hforce : ∀ p, active.pendingMembership = some p →
      (p.verifyAt P now = .ok () ↔ InForce p.windows now) := by
    intro p hp
    obtain ⟨time, hverified⟩ := pending_verified law h hactive p hp
    exact SignedMembershipProposal.verifyAt_iff hverified
  rcases tick_pending law hrun with ⟨hsame, hgone⟩ | ⟨hverified, hbefore⟩
  · rw [hsame]
    refine forall₂_congr fun p hp => ?_
    rw [hforce p hp, or_iff_left hgone]
  · refine iff_of_true hverified fun p hp => ?_
    rcases hbefore with hgone | hbefore
    · exact .inr hgone
    · exact .inl ((hforce p hp).mp (hbefore p hp))

/-- A table waits for a player who has asked for a seat and never signs. -/
def absentScript : List (Turn plainRoom) :=
  [.create 0, .join 1 0, .tick 1 0, .hand 1 0 isJoinIntent 0, .tick 0 1000]

variable (elapsed : Nat)

/-- The wall clock some milliseconds after the beginning. -/
def plainTime : UInt64 := plainEpoch + UInt64.ofNat elapsed

/-- A tick of the creator, some milliseconds after the beginning. -/
def creatorTick : SessionM Unit :=
  tick .plain (plainRoom.identity (0 : Fin 4))
    [Primitives.plain.peerIdToBytes (plainRoom.identity (0 : Fin 4)).peerId] (plainTime elapsed)
    elapsed ⟨FixedBytes.ofNat 1, FixedBytes.ofNat 2⟩

/-- The creator has a session and its next tick succeeds; the session before the
tick and the one after it are checked. -/
def creatorTicks (check : ActiveSession → ActiveSession → Bool) (w : plainRoom.World) : Bool :=
  match (w (0 : Fin 4)).session with
  | none => false
  | some active =>
    match (creatorTick elapsed).run ⟨active, []⟩ with
    | .ok _ after => check active after.active
    | .error _ _ => false

theorem exists_tick (script : List (Turn plainRoom)) (elapsed : Nat)
    (check : ActiveSession → ActiveSession → Bool)
    (h : (play plainRoom.anything plainRoom.start script).any (creatorTicks elapsed check) = true) :
    ∃ (w : plainRoom.World) (active : ActiveSession) (after : Running),
      Reach plainRoom.honest plainRoom.anything w ∧ (w (0 : Fin 4)).session = some active ∧
        (creatorTick elapsed).run ⟨active, []⟩ = .ok () after ∧
          check active after.active = true := by
  obtain ⟨w, hreach, hcheck⟩ := exists_reach_of_play h
  unfold creatorTicks at hcheck
  split at hcheck
  · cases hcheck
  · rename_i active hactive
    split at hcheck
    · rename_i after hrun
      exact ⟨w, active, after, hreach, hactive, hrun, hcheck⟩
    · cases hcheck

/-- A second after the proposal was made it is in force, and stays so. -/
theorem tick_pending_iff_waiting :
    ∃ (w : plainRoom.World) (active : ActiveSession) (after : Running)
        (p : SignedMembershipProposal),
      Reach plainRoom.honest plainRoom.anything w ∧ (w (0 : Fin 4)).session = some active ∧
        (creatorTick 2000).run ⟨active, []⟩ = .ok () after ∧
        after.active.pendingMembership = some p ∧
        p.verifyAt Primitives.plain (plainTime 2000) = .ok () := by
  obtain ⟨w, active, after, hreach, hactive, hrun, hcheck⟩ := exists_tick absentScript 2000
    (fun active after => active.pendingMembership.all
      (fun p => InForce p.windows (plainTime 2000)) && after.pendingMembership.isSome)
    (by decide +kernel)
  rw [Bool.and_eq_true] at hcheck
  obtain ⟨hforce, hsome⟩ := hcheck
  obtain ⟨p, hp⟩ := Option.isSome_iff_exists.mp hsome
  have hiff := (tick_pending_iff Primitives.plain_signaturesVerify hreach.opened_of_honest hactive
    hrun).1
  refine ⟨w, active, after, p, hreach, hactive, hrun, hp, hiff.mpr (fun q hq => .inl ?_) p hp⟩
  rw [hq] at hforce
  exact of_decide_eq_true hforce

/-- After 36 minutes the join intent of the absent player has run out, and the
creator still waits for it. -/
theorem stale_proposal_stays :
    ∃ (w : plainRoom.World) (active : ActiveSession) (after : Running)
        (p : SignedMembershipProposal),
      Reach plainRoom.honest plainRoom.anything w ∧ (w (0 : Fin 4)).session = some active ∧
        (creatorTick 2160000).run ⟨active, []⟩ = .ok () after ∧
        after.active.pendingMembership = some p ∧
        p.verifyAt Primitives.plain (plainTime 2160000) ≠ .ok () ∧
        ∃ seat ∈ p.proposal.seats, isSignedTimeBeforeExpiry (plainTime 2160000)
          seat.joinIntent.expiresAtUnixMs = false := by
  obtain ⟨w, active, after, hreach, hactive, hrun, hcheck⟩ := exists_tick absentScript 2160000
    (fun _ after => after.pendingMembership.any fun p =>
      p.verifyAt Primitives.plain (plainTime 2160000) ≠ .ok () ∧
        ∃ seat ∈ p.proposal.seats, isSignedTimeBeforeExpiry (plainTime 2160000)
          seat.joinIntent.expiresAtUnixMs = false)
    (by decide +kernel)
  obtain ⟨p, hp, hstale⟩ := (Option.any_eq_true _ _).mp hcheck
  exact ⟨w, active, after, p, hreach, hactive, hrun, hp, of_decide_eq_true hstale⟩

end Room

end TokenHoldem
