import TokenHoldem.Sidecar.TableSession.Layout
import TokenHoldem.Sidecar.TableSession.World

/-!
# The participants of a hand

While a hand is going on, the membership may change, but the players of the
hand should keep their seats. A session checks this for the proposals it
receives during a hand. It does not check it for the proposals it makes itself,
which leave out players whose join intents have run out, nor for a proposal that
was pending when the hand began. So a player can lose the seat during a hand
(`participant_unseated`); in the runs without these two cases nobody does
(`participants_stay`).
-/

namespace TokenHoldem

open Library TableSession

/-- Every player of one membership sits on the same seat in the other. -/
def KeepsSeats (current next : MembershipProposal) : Prop :=
  ∀ seat ∈ current.seats, ∃ claim ∈ next.seats,
    claim.joinIntent.playerId = seat.joinIntent.playerId ∧ claim.physicalSeat = seat.physicalSeat
deriving Decidable

/-- Every player of a roster sits on the same seat in the membership. -/
def SeatsRoster (roster : ReadyHandRoster) (membership : MembershipProposal) : Prop :=
  ∀ seat ∈ roster.seats, ∃ claim ∈ membership.seats,
    claim.joinIntent.playerId = seat.playerId ∧ claim.physicalSeat = seat.physicalSeat
deriving Decidable

theorem SeatsRoster.trans {roster : ReadyHandRoster} {current next : MembershipProposal}
    (h : SeatsRoster roster current) (kept : KeepsSeats current next) :
    SeatsRoster roster next := by
  intro seat hseat
  obtain ⟨held, hheld, hplayer, hphysical⟩ := h seat hseat
  obtain ⟨claim, hclaim, hplayer', hphysical'⟩ := kept held hheld
  exact ⟨claim, hclaim, hplayer'.trans hplayer, hphysical'.trans hphysical⟩

variable {P : Primitives} {identity : LocalIdentity} {received : Option RoomWireMessage}
  {a b : ActiveSession} {effects : List Effect} {now : UInt64}

/-- A verified roster is frozen from its membership. -/
theorem CertifiedRoster.seatsRoster {confirmed : CertifiedRoster}
    (h : confirmed.verifyAt P now = .ok ()) :
    SeatsRoster confirmed.proposal.proposal.readyRoster confirmed.proposal.membership.proposal := by
  have hsigned := (verifyHandRosterAcceptances_eq_ok h).1
  obtain ⟨-, -, hcontents⟩ :=
    HandRosterProposal.verify_eq_ok (SignedHandRosterProposal.verifyAt_eq_ok hsigned)
  unfold HandRosterProposal.validateContents at hcontents
  obtain ⟨-, hcontents⟩ := ensure_bind_eq_ok.mp hcontents
  obtain ⟨hroster, -⟩ := unit_bind_eq_ok.mp hcontents
  unfold validateRosterMembership at hroster
  obtain ⟨-, hroster⟩ := ensure_bind_eq_ok.mp hroster
  obtain ⟨-, hroster⟩ := ensure_bind_eq_ok.mp hroster
  rw [checkAll_eq_ok] at hroster
  intro seat hseat
  obtain ⟨claim, hclaim, hmatch⟩ := okOr_bind_eq_ok.mp (hroster seat hseat)
  obtain ⟨hphysical, -⟩ := ensure_eq_ok.mp hmatch
  obtain ⟨hmem, hplayer⟩ := MembershipProposal.seatByPlayer_eq_some hclaim
  exact ⟨claim, hmem, hplayer, hphysical.symm⟩

variable {current signed : SignedMembershipProposal}

/-- What passes the scope check during a hand keeps the seats. -/
theorem validateMembershipScope_keeps (scope : validateMembershipScope a signed = .ok ())
    (hand : a.handActive = true) (members : a.membership = some current) :
    KeepsSeats current.proposal signed.proposal := by
  unfold validateMembershipScope at scope
  obtain ⟨-, scope⟩ := ensure_bind_eq_ok.mp scope
  obtain ⟨-, scope⟩ := ensure_bind_eq_ok.mp scope
  rw [members] at scope
  obtain ⟨-, scope⟩ := ensure_bind_eq_ok.mp scope
  obtain ⟨-, scope⟩ := ensure_bind_eq_ok.mp scope
  rw [if_pos hand, checkAll_eq_ok] at scope
  intro seat hseat
  obtain ⟨claim, hclaim, hphysical⟩ := okOr_bind_eq_ok.mp (scope seat hseat)
  obtain ⟨hmem, hplayer⟩ := MembershipProposal.seatByPlayer_eq_some hclaim
  exact ⟨claim, hmem, hplayer, ensure_eq_ok.mp hphysical⟩

/-- A proposal that is opened during a hand keeps the seats, if the joins of all
members are still held when the session lays it out itself. -/
theorem Opening.keeps (opening : Opening P received a now signed) (hand : a.handActive = true)
    (members : a.membership = some current)
    (distinct : ∀ x ∈ current.proposal.seats, ∀ y ∈ current.proposal.seats,
      x.physicalSeat = y.physicalSeat → x = y)
    (joined : ∀ seat ∈ current.proposal.seats, a.HoldsJoin P now seat.joinIntent.playerId) :
    KeepsSeats current.proposal signed.proposal := by
  cases opening with
  | received _ _ scope => exact validateMembershipScope_keeps scope hand members
  | own laid =>
    obtain ⟨_, _, _, layout, _, _, laidOut, assembled, issued⟩ := laid
    intro seat hseat
    have hstays : ¬ a.Released seat.joinIntent.playerId := fun h =>
      absurd (hand.symm.trans h.1) (by simp)
    obtain ⟨claim, hclaim, hphysical, hplayer⟩ :=
      nextMembershipLayout_keeps members distinct laidOut hseat hstays (joined seat hseat)
    obtain ⟨-, -, -, -, hseats, -⟩ := MembershipProposal.assemble_eq_ok assembled
    refine ⟨claim, ?_, hplayer, hphysical⟩
    rw [SignedMembershipProposal.issue_eq_ok issued, hseats, mem_sortByKey]
    exact hclaim

/-! ## The invariant -/

/-- A membership was verified at some time. -/
def WellFormed (P : Primitives) (membership : SignedMembershipProposal) : Prop :=
  ∃ now, membership.proposal.validateContents P now = .ok ()

theorem WellFormed.distinct {membership : SignedMembershipProposal} (h : WellFormed P membership) :
    ∀ x ∈ membership.proposal.seats, ∀ y ∈ membership.proposal.seats,
      x.physicalSeat = y.physicalSeat → x = y := by
  obtain ⟨now, hcontents⟩ := h
  intro x hx y hy hseat
  exact MembershipProposal.validateContents_seats hcontents hx hy (.inl hseat)

theorem CertifiedMembership.wellFormed {confirmed : CertifiedMembership}
    (h : confirmed.verifyAt P now = .ok ()) : WellFormed P confirmed.proposal := by
  have hsigned := SignedMembershipProposal.verifyAt_eq_ok (verifyMembershipAcceptances_eq_ok h).1
  unfold MembershipProposal.verifyAt at hsigned
  obtain ⟨-, hsigned⟩ := ensure_bind_eq_ok.mp hsigned
  exact ⟨now, (unit_bind_eq_ok.mp hsigned).1⟩

/-- What holds of the agreement of a session between two moves. -/
structure HandSeated (P : Primitives) (c : Consensus) : Prop where
  /-- The membership was verified when it was activated. -/
  wellFormed : ∀ membership, c.membership = some membership → WellFormed P membership
  /-- A pending roster is one of the current membership. -/
  pendingRoster : ∀ signed, c.pendingRoster = some signed → c.membership = some signed.membership
  /-- During a hand, the current membership seats its participants. -/
  hand : c.handActive = true → ∃ roster membership, c.activeRoster = some roster ∧
    c.membership = some membership ∧ SeatsRoster roster.proposal.readyRoster membership.proposal
  /-- During a hand, a pending proposal keeps the seats. -/
  pending : c.handActive = true → ∀ membership, c.membership = some membership →
    ∀ signed, c.pendingMembership = some signed → KeepsSeats membership.proposal signed.proposal

/-- A membership activated during a hand seats the participants of the hand. -/
def KeepsParticipants : Effect → Prop
  | .activatedMembership (some before) confirmed => before.handActive = true →
    ∃ roster, before.activeRoster = some roster ∧
      SeatsRoster roster.proposal.readyRoster confirmed.proposal.proposal
  | _ => True

/-- During a hand, a proposal is opened only while the joins of all members are
held; and a hand begins only when the pending proposal, if there is one, keeps
the seats. -/
def HandDisciplined (P : Primitives) : Effect → Prop
  | .openedMembership before now _ => before.handActive = true →
    ∀ membership ∈ before.membership, ∀ seat ∈ membership.proposal.seats,
      before.HoldsJoin P now seat.joinIntent.playerId
  | .activatedRoster before _ => ∀ membership ∈ before.membership,
    ∀ signed ∈ before.pendingMembership, KeepsSeats membership.proposal signed.proposal
  | _ => True

namespace HandSeated

theorem of_blank (tableId : TableId) (level : StakeLevel) :
    HandSeated P (Consensus.blank tableId level) where
  wellFormed _ h := nomatch h
  pendingRoster _ h := nomatch h
  hand h := nomatch h
  pending h := nomatch h

/-- The parts that the invariant does not look at. -/
theorem congr {c d : Consensus} (h : HandSeated P c) (members : d.membership = c.membership)
    (pendingMembership : d.pendingMembership = c.pendingMembership ∨ d.pendingMembership = none)
    (pendingRoster : d.pendingRoster = c.pendingRoster ∨ d.pendingRoster = none)
    (activeRoster : d.activeRoster = c.activeRoster) (handActive : d.handActive = c.handActive) :
    HandSeated P d where
  wellFormed := members ▸ h.wellFormed
  pendingRoster signed hsigned := by
    rcases pendingRoster with hsame | hnone
    · exact members ▸ h.pendingRoster signed (hsame ▸ hsigned)
    · exact absurd (hnone.symm.trans hsigned) (by simp)
  hand := by
    rw [handActive, activeRoster, members]
    exact h.hand
  pending hhand membership hmembership signed hsigned := by
    rcases pendingMembership with hsame | hnone
    · exact h.pending (handActive ▸ hhand) membership (members ▸ hmembership) signed
        (hsame ▸ hsigned)
    · exact absurd (hnone.symm.trans hsigned) (by simp)

/-- When no hand is going on, the seats of the membership are free to change. -/
theorem idle {c d : Consensus} (h : HandSeated P c) (members : d.membership = c.membership)
    (pendingRoster : d.pendingRoster = c.pendingRoster ∨ d.pendingRoster = none)
    (handActive : d.handActive = false) : HandSeated P d where
  wellFormed := members ▸ h.wellFormed
  pendingRoster signed hsigned := by
    rcases pendingRoster with hsame | hnone
    · exact members ▸ h.pendingRoster signed (hsame ▸ hsigned)
    · exact absurd (hnone.symm.trans hsigned) (by simp)
  hand hhand := absurd (handActive.symm.trans hhand) (by simp)
  pending hhand := absurd (handActive.symm.trans hhand) (by simp)

/-- A membership that is activated during a hand keeps the seats. -/
theorem keeps {current : SignedMembershipProposal} {confirmed : CertifiedMembership}
    (h : HandSeated P a.consensus) (hand : a.handActive = true)
    (members : a.membership = some current)
    (origin : MembershipOrigin received a confirmed) :
    KeepsSeats current.proposal confirmed.proposal.proposal := by
  rcases origin with ⟨hpending, -⟩ | ⟨-, scope⟩
  · exact h.pending hand current members confirmed.proposal hpending
  · exact validateMembershipScope_keeps scope hand members

/-- Every move keeps the invariant and the participants. -/
theorem move (h : HandSeated P a.consensus) (hmove : Move P identity received a effects b)
    (met : ∀ effect ∈ effects, HandDisciplined P effect) :
    HandSeated P b.consensus ∧ ∀ effect ∈ effects, KeepsParticipants effect := by
  cases hmove with
  | quiet same => exact ⟨same ▸ h, by simp⟩
  | note harmless =>
    refine ⟨h, fun effect heffect => ?_⟩
    obtain rfl := List.mem_singleton.mp heffect
    cases harmless <;> trivial
  | proposeMembership => exact ⟨h, by simp [KeepsParticipants]⟩
  | takeMembership change =>
    rw [change]
    exact ⟨h.congr rfl (.inr rfl) (.inl rfl) rfl rfl, by simp⟩
  | forgetMembership change =>
    rw [change]
    exact ⟨h.congr rfl (.inr rfl) (.inl rfl) rfl rfl, by simp⟩
  | openMembership signed now opening change =>
    rw [change]
    refine ⟨⟨h.wellFormed, h.pendingRoster, h.hand, ?_⟩, by simp [KeepsParticipants]⟩
    intro hhand membership hmembership other hother
    obtain rfl := Option.some.inj hother
    exact opening.keeps hhand hmembership (h.wellFormed membership hmembership).distinct
      (met _ List.mem_cons_self hhand membership hmembership)
  | voteMembership _ _ _ _ _ _ change =>
    rw [change]
    exact ⟨h.congr rfl (.inl rfl) (.inl rfl) rfl rfl, by simp [KeepsParticipants]⟩
  | collectMembership _ _ change =>
    rw [change]
    exact ⟨h.congr rfl (.inl rfl) (.inl rfl) rfl rfl, by simp⟩
  | activateMembership before confirmed now verified origin same change =>
    -- the participants sit in the old membership, which the new one keeps
    have hseats : a.handActive = true → ∃ roster, a.activeRoster = some roster ∧
        SeatsRoster roster.proposal.readyRoster confirmed.proposal.proposal := by
      intro hhand
      obtain ⟨roster, membership, hroster, hmembership, hseats⟩ := h.hand hhand
      exact ⟨roster, hroster, hseats.trans (h.keeps hhand hmembership origin)⟩
    constructor
    · rw [change]
      refine ⟨?_, fun _ hnone => (nomatch hnone), fun hhand => ?_,
        fun _ _ _ _ hnone => nomatch hnone⟩
      · intro membership hmembership
        obtain rfl := Option.some.inj hmembership
        exact CertifiedMembership.wellFormed verified
      · obtain ⟨roster, hroster, hseats⟩ := hseats hhand
        exact ⟨roster, confirmed.proposal, hroster, rfl, hseats⟩
    · intro effect heffect
      obtain rfl := List.mem_singleton.mp heffect
      intro hhand
      have hbefore : before.handActive = a.handActive := congrArg Consensus.handActive same
      have hroster : before.activeRoster = a.activeRoster := congrArg Consensus.activeRoster same
      rw [hroster]
      exact hseats (hbefore ▸ hhand)
  | voteRoster signed _ _ _ _ _ _ members _ change =>
    rw [change]
    refine ⟨⟨h.wellFormed, fun other hother => ?_, h.hand, h.pending⟩, by simp [KeepsParticipants]⟩
    obtain rfl := Option.some.inj hother
    exact members
  | adoptClock _ _ _ change =>
    rw [change]
    exact ⟨h.congr rfl (.inl rfl) (.inl rfl) rfl rfl, by simp⟩
  | collectRoster _ _ change =>
    rw [change]
    exact ⟨h.congr rfl (.inl rfl) (.inl rfl) rfl rfl, by simp⟩
  | takeRoster change =>
    rw [change]
    exact ⟨h.congr rfl (.inl rfl) (.inr rfl) rfl rfl, by simp⟩
  | activateRoster before confirmed now verified origin same change =>
    have members : a.membership = some confirmed.proposal.membership := by
      rcases origin with ⟨hpending, -⟩ | ⟨-, hmembers⟩
      · exact h.pendingRoster _ hpending
      · exact hmembers
    refine ⟨?_, by simp [KeepsParticipants]⟩
    rw [change]
    refine ⟨h.wellFormed, fun _ hnone => (nomatch hnone), fun _ => ?_, fun _ => ?_⟩
    · exact ⟨confirmed.proposal, confirmed.proposal.membership, rfl, members,
        CertifiedRoster.seatsRoster verified⟩
    · -- what is pending now was pending before the roster was taken
      intro membership hmembership signed hsigned
      have hbefore : before.membership = a.membership := congrArg Consensus.membership same
      have hpending : before.pendingMembership = a.pendingMembership :=
        congrArg Consensus.pendingMembership same
      exact met _ List.mem_cons_self membership (hbefore.trans hmembership) signed
        (hpending.trans hsigned)
  | endHand _ change =>
    rw [change]
    exact ⟨h.idle rfl (.inl rfl) rfl, by simp⟩
  | boundary _ _ _ _ change =>
    rw [change]
    exact ⟨h.idle rfl (.inr rfl) rfl, by simp [KeepsParticipants]⟩

end HandSeated

instance instDecidableHandDisciplined (P : Primitives) :
    ∀ effect, Decidable (HandDisciplined P effect)
  | .openedMembership before now _ => inferInstanceAs (Decidable (before.handActive = true →
    ∀ membership ∈ before.membership, ∀ seat ∈ membership.proposal.seats,
      before.HoldsJoin P now seat.joinIntent.playerId))
  | .activatedRoster before _ => inferInstanceAs (Decidable (∀ membership ∈ before.membership,
    ∀ signed ∈ before.pendingMembership, KeepsSeats membership.proposal signed.proposal))
  | .entered => .isTrue trivial
  | .signed _ => .isTrue trivial
  | .sent _ => .isTrue trivial
  | .proposedMembership _ _ _ => .isTrue trivial
  | .rosterBallot _ _ => .isTrue trivial
  | .activatedMembership _ _ => .isTrue trivial
  | .boundary _ _ => .isTrue trivial
  | .handAborted _ => .isTrue trivial

namespace Room

variable {room : Room P}

/-- The condition on the effects of a run. -/
def handDiscipline (room : Room P) : Condition room := fun _ _ effect => HandDisciplined P effect

instance instDecidableHandDiscipline (log : room.Log) (peer : room.Peer) (effect : Effect) :
    Decidable (room.handDiscipline log peer effect) := instDecidableHandDisciplined P effect

theorem handDisciplined_of_safe {log : room.Log} {peer : room.Peer}
    (h : Safe room.handDiscipline peer log effects) :
    ∀ effect ∈ effects, HandDisciplined P effect := by
  induction effects generalizing log with
  | nil => simp
  | cons first rest ih => exact List.forall_mem_cons.mpr ⟨h.1, ih h.2⟩

/-- In a disciplined run, a membership activated during a hand seats every
participant of the hand on the same seat. -/
theorem participants_stay {w : room.World} (reached : Reach room.opened room.handDiscipline w)
    {peer : room.Peer} {before : ActiveSession} {confirmed : CertifiedMembership}
    (activated : .activatedMembership (some before) confirmed ∈ (w peer).history)
    (hand : before.handActive = true) :
    ∃ roster, before.activeRoster = some roster ∧
      SeatsRoster roster.proposal.readyRoster confirmed.proposal.proposal := by
  have history := (reached.by_sessions (I := fun active => HandSeated P active.consensus)
    (J := KeepsParticipants) ?enter ?move).2
  case enter =>
    intro peer active effects entry
    cases entry with
    | created _ _ now _ confirmed _ _ verified _ state =>
      rw [state]
      refine ⟨⟨?_, fun _ h => (nomatch h), fun h => (nomatch h), fun h => nomatch h⟩,
        by simp [KeepsParticipants]⟩
      intro membership hmembership
      obtain rfl := Option.some.inj hmembership
      exact CertifiedMembership.wellFormed verified
    | joined _ state =>
      rw [state]
      exact ⟨.of_blank .., by simp [KeepsParticipants]⟩
  case move =>
    intro log peer received active effects next hactive hmove met
    exact hactive.move hmove (handDisciplined_of_safe met)
  exact history peer _ activated hand

/-- Two peers come to sit at one table and begin a hand. -/
def handScript : List (Turn plainRoom) :=
  [.create 0, .join 1 0, .tick 1 0, .hand 1 0 isJoinIntent 0,
    .tick 0 1000, .hand 0 1 isMembershipProposal 1000,
    .tick 1 2000, .hand 1 0 isMembershipAcceptance 2000,
    .tick 0 6000, .hand 0 1 isCertifiedMembership 6000, .hand 0 1 isRosterProposal 6000,
    .tick 1 7000, .hand 1 0 isRosterAcceptance 7000]

/-- Then a third player asks for a seat and has to wait for the end of the hand. -/
def waitingScript : List (Turn plainRoom) :=
  handScript ++ [.join 2 0, .tick 2 8000, .hand 2 0 isJoinIntent 8000,
    .tick 0 9000, .hand 0 1 isMembershipProposal 9000,
    .tick 1 10000, .hand 1 0 isMembershipAcceptance 10000]

/-- Or, the second player's join intent runs out during the hand. -/
def expiryScript : List (Turn plainRoom) := handScript ++ [.tick 0 2160000]

/-- A membership activated during a hand, with the state before and the roster. -/
def inHand? : Effect → Option (ActiveSession × SignedHandRosterProposal × CertifiedMembership)
  | .activatedMembership (some before) confirmed =>
    if before.handActive then before.activeRoster.map fun roster => (before, roster, confirmed)
    else none
  | _ => none

theorem inHand?_eq_some {effect : Effect}
    {entry : ActiveSession × SignedHandRosterProposal × CertifiedMembership}
    (h : inHand? effect = some entry) :
    effect = .activatedMembership (some entry.1) entry.2.2 ∧ entry.1.handActive = true ∧
      entry.1.activeRoster = some entry.2.1 := by
  unfold inHand? at h
  split at h
  · rw [Option.ite_none_right_eq_some] at h
    obtain ⟨hhand, h⟩ := h
    obtain ⟨roster, hroster, rfl⟩ := Option.map_eq_some_iff.mp h
    exact ⟨rfl, hhand, hroster⟩
  · cases h

/-- A script after which the creator has activated a membership during a hand
that is checked. -/
theorem exists_activatedInHand (safe : Condition plainRoom)
    [∀ log peer effect, Decidable (safe log peer effect)] (turns : List (Turn plainRoom))
    (check : SignedHandRosterProposal → CertifiedMembership → Bool)
    (h : (play safe plainRoom.start turns).any (fun w =>
      ((w (0 : Fin 4)).history.filterMap inHand?).any fun entry =>
        check entry.2.1 entry.2.2) = true) :
    ∃ (w : plainRoom.World) (before : ActiveSession) (roster : SignedHandRosterProposal)
      (confirmed : CertifiedMembership), Reach plainRoom.honest safe w ∧
        .activatedMembership (some before) confirmed ∈ (w (0 : Fin 4)).history ∧
        before.handActive = true ∧ before.activeRoster = some roster ∧
        check roster confirmed = true := by
  obtain ⟨w, hreach, hcheck⟩ := exists_reach_of_play h
  obtain ⟨⟨before, roster, confirmed⟩, hentry, hcheck⟩ := List.any_eq_true.mp hcheck
  obtain ⟨effect, heffect, hread⟩ := List.mem_filterMap.mp hentry
  obtain ⟨rfl, hhand, hroster⟩ := inHand?_eq_some hread
  exact ⟨w, before, roster, confirmed, hreach, heffect, hhand, hroster, hcheck⟩

/-- While a third player waits, the two participants keep their seats. -/
theorem participants_stay_waiting :
    ∃ (w : plainRoom.World) (before : ActiveSession) (roster : SignedHandRosterProposal)
      (confirmed : CertifiedMembership), Reach plainRoom.honest plainRoom.handDiscipline w ∧
        .activatedMembership (some before) confirmed ∈ (w (0 : Fin 4)).history ∧
        before.handActive = true ∧ before.activeRoster = some roster ∧
        confirmed.proposal.proposal.waiting ≠ [] ∧ roster.proposal.readyRoster.seats ≠ [] ∧
        SeatsRoster roster.proposal.readyRoster confirmed.proposal.proposal := by
  obtain ⟨w, before, roster, confirmed, hreach, hmem, hhand, hroster, hcheck⟩ :=
    exists_activatedInHand plainRoom.handDiscipline waitingScript
      (fun roster confirmed => confirmed.proposal.proposal.waiting ≠ [] ∧
        roster.proposal.readyRoster.seats ≠ []) (by decide +kernel)
  obtain ⟨hwaiting, hseats⟩ := of_decide_eq_true hcheck
  obtain ⟨other, hother, hstay⟩ := participants_stay hreach.opened_of_honest hmem hhand
  obtain rfl := Option.some.inj (hroster.symm.trans hother)
  exact ⟨w, before, roster, confirmed, hreach, hmem, hhand, hroster, hwaiting, hseats, hstay⟩

/-- The creator activates a membership in which a participant of the hand that
is going on has lost the seat. -/
theorem participant_unseated :
    ∃ (w : plainRoom.World) (before : ActiveSession) (roster : SignedHandRosterProposal)
      (confirmed : CertifiedMembership), Reach plainRoom.honest plainRoom.anything w ∧
        .activatedMembership (some before) confirmed ∈ (w (0 : Fin 4)).history ∧
        before.handActive = true ∧ before.activeRoster = some roster ∧
        ¬ SeatsRoster roster.proposal.readyRoster confirmed.proposal.proposal := by
  obtain ⟨w, before, roster, confirmed, hreach, hmem, hhand, hroster, hcheck⟩ :=
    exists_activatedInHand plainRoom.anything expiryScript (fun roster confirmed =>
        ¬ SeatsRoster roster.proposal.readyRoster confirmed.proposal.proposal) (by decide +kernel)
  exact ⟨w, before, roster, confirmed, hreach, hmem, hhand, hroster, of_decide_eq_true hcheck⟩

end Room

end TokenHoldem
