import TokenHoldem.Sidecar.TableSession.MembershipAgreement
import TokenHoldem.Sidecar.TableSession.Participants

/-!
# Who may change a membership

Outside of a hand, a peer accepts a successor of its membership from anyone:
the successor has to follow on the membership (version, digest of the previous
one, table, level), it has to be signed by the device on its own lowest seat, and
it becomes the membership once all of its own seats have accepted it. Who sat at
the table before is not looked at, so an outsider can take it over together with
one member (`membership_taken_over`).

What a peer proposes on its own is fairer: it leaves out only members that have
left or whose join intents it does not hold any more, and it moves nobody.
`successors_authorized` has both halves.
-/

namespace TokenHoldem

open Library TableSession List SignedMembershipProposal

variable {P : Primitives} {identity : LocalIdentity} {received : Option RoomWireMessage}
  {a b : ActiveSession} {effects : List Effect} {now : UInt64}

/-- The proposal is signed by the device on its lowest seat. -/
def SignedByLowestSeat (signed : SignedMembershipProposal) : Prop :=
  ∃ seat ∈ signed.proposal.seats,
    (∀ other ∈ signed.proposal.seats, seat.physicalSeat ≤ other.physicalSeat) ∧
      signed.attestation.certificate.playerId = seat.joinIntent.playerId ∧
      signed.attestation.certificate.devicePublicKey = seat.joinIntent.devicePublicKey

/-- What a peer checks of a successor of its membership. -/
structure Succeeds (P : Primitives) (tableId : TableId) (level : StakeLevel)
    (current next : SignedMembershipProposal) (now : UInt64) : Prop where
  tableId : next.proposal.tableId = tableId
  level : next.proposal.level = level
  version : next.proposal.membershipVersion = saturatingAdd current.proposal.membershipVersion 1
  previous : next.proposal.previousMembershipHash = some current.proposal.proposalHash
  verified : next.verifyAt P now = .ok ()
  coordinator : SignedByLowestSeat next

/-- The members that are left out have left or are not known any more, and
nobody is moved. -/
structure FairTo (P : Primitives) (before : ActiveSession) (now : UInt64)
    (current next : MembershipProposal) : Prop where
  absent : ∀ seat ∈ current.seats,
    (∀ claim ∈ next.seats, claim.joinIntent.playerId ≠ seat.joinIntent.playerId) →
    (∃ leave ∈ next.leaveIntents, before.leaves[seat.joinIntent.playerId]? = some leave) ∨
      ¬ before.HoldsJoin P now seat.joinIntent.playerId
  stays : ∀ seat ∈ current.seats, ∀ claim ∈ next.seats,
    claim.joinIntent.playerId = seat.joinIntent.playerId → claim.physicalSeat = seat.physicalSeat

/-! ## What the checks give -/

variable {signed current : SignedMembershipProposal}

/-- A verified proposal is signed by the device on its lowest seat. -/
theorem SignedMembershipProposal.signedByLowestSeat (h : signed.verifyAt P now = .ok ()) :
    SignedByLowestSeat signed := by
  have hcontents : signed.proposal.validateContents P now = .ok () := by
    have hproposal := verifyAt_eq_ok h
    unfold MembershipProposal.verifyAt at hproposal
    obtain ⟨-, hproposal⟩ := ensure_bind_eq_ok.mp hproposal
    exact (unit_bind_eq_ok.mp hproposal).1
  unfold verifyAt at h
  obtain ⟨-, h⟩ := ensure_bind_eq_ok.mp h
  obtain ⟨-, h⟩ := unit_bind_eq_ok.mp h
  obtain ⟨hclaim, h⟩ := ensure_bind_eq_ok.mp h
  obtain ⟨coordinator, hfound, h⟩ := okOr_bind_eq_ok.mp h
  obtain ⟨⟨hplayer, hdevice⟩, -⟩ := ensure_bind_eq_ok.mp h
  obtain ⟨hmem, hlowest⟩ :=
    MembershipProposal.seatByClaimId_coordinatorClaimId hcontents hclaim hfound
  exact ⟨coordinator, hmem, hlowest, hplayer, hdevice⟩

/-- What passes the scope check and verifies is a successor. -/
theorem Succeeds.of_scope (scope : validateMembershipScope a signed = .ok ())
    (members : a.membership = some current) (verified : signed.verifyAt P now = .ok ()) :
    Succeeds P a.tableId a.level current signed now := by
  unfold validateMembershipScope at scope
  obtain ⟨htable, scope⟩ := ensure_bind_eq_ok.mp scope
  obtain ⟨hlevel, scope⟩ := ensure_bind_eq_ok.mp scope
  rw [members] at scope
  obtain ⟨hversion, scope⟩ := ensure_bind_eq_ok.mp scope
  obtain ⟨hprevious, -⟩ := ensure_bind_eq_ok.mp scope
  exact ⟨htable, hlevel, hversion, hprevious, verified, signedByLowestSeat verified⟩

/-- Whatever becomes pending is a successor. -/
theorem Opening.succeeds (law : P.SignaturesVerify) (opening : Opening P received a now signed)
    (members : a.membership = some current) : Succeeds P a.tableId a.level current signed now := by
  have verified := opening.verified law
  cases opening with
  | received _ _ scope => exact .of_scope scope members verified
  | own laid =>
    obtain ⟨_, _, membership, _, _, hcurrent, -, assembled, issued⟩ := laid
    obtain rfl := Option.some.inj (members.symm.trans hcurrent)
    obtain ⟨htable, hlevel, hversion, hprevious, -, -⟩ :=
      MembershipProposal.assemble_eq_ok assembled
    have hproposal := issue_eq_ok issued
    rw [← hproposal] at htable hlevel hversion hprevious
    exact ⟨htable, hlevel, hversion, hprevious, verified, signedByLowestSeat verified⟩

/-- What a session lays out itself is fair to the members. -/
theorem LaidOut.fairTo (laid : LaidOut P a now signed) (members : a.membership = some current)
    (wellFormed : WellFormed P current) : FairTo P a now current.proposal signed.proposal := by
  obtain ⟨_, _, membership, layout, _, hcurrent, laidOut, assembled, issued⟩ := laid
  obtain ⟨-, -, -, -, hseats, hleaves⟩ := MembershipProposal.assemble_eq_ok assembled
  rw [← issue_eq_ok issued] at hseats hleaves
  have hmem : ∀ claim, claim ∈ signed.proposal.seats ↔ claim ∈ layout.1 :=
    fun claim => by rw [hseats, mem_sortByKey]
  constructor
  · intro seat hseat habsent
    by_cases hreleased : a.Released seat.joinIntent.playerId
    · left
      obtain ⟨leave, hleave⟩ := Option.isSome_iff_exists.mp
        (Std.TreeMap.mem_iff_isSome_getElem?.mp (Std.TreeMap.contains_iff_mem.mp hreleased.2))
      refine ⟨leave, ?_, hleave⟩
      rw [hleaves, mem_sortByKey]
      exact mem_values.mpr ⟨_, hleave⟩
    · right
      intro joined
      obtain ⟨claim, hclaim, -, hplayer⟩ :=
        nextMembershipLayout_keeps members wellFormed.distinct laidOut hseat hreleased joined
      exact habsent claim ((hmem claim).mpr hclaim) hplayer
  · intro seat hseat claim hclaim hplayer
    obtain ⟨old, hold, hsame, hphysical⟩ :=
      nextMembershipLayout_stays members wellFormed.distinct laidOut hseat ((hmem claim).mp hclaim)
        hplayer
    obtain ⟨time, hcontents⟩ := wellFormed
    rw [hphysical, MembershipProposal.validateContents_seats hcontents hold hseat (.inr hsame)]

/-! ## The invariant -/

/-- A successor that all its seats have accepted. -/
def Confirmed (P : Primitives) (before : ActiveSession) (current : SignedMembershipProposal)
    (confirmed : CertifiedMembership) : Prop :=
  ∃ now, Succeeds P before.tableId before.level current confirmed.proposal now ∧
    ∀ seat ∈ confirmed.proposal.proposal.seats, ∃ acceptance ∈ confirmed.acceptances,
      acceptance.claimId = seat.joinIntent.claimId P ∧
        MembershipAcceptance.verifyAt P confirmed.proposal now acceptance = .ok ()

/-- What an effect says about the successors of a membership. -/
def Succession (P : Primitives) : Effect → Prop
  | .proposedMembership before now signed => ∀ current, before.membership = some current →
    FairTo P before now current.proposal signed.proposal
  | .openedMembership before now signed => ∀ current, before.membership = some current →
    Succeeds P before.tableId before.level current signed now
  | .activatedMembership (some before) confirmed => ∀ current, before.membership = some current →
    Confirmed P before current confirmed
  | _ => True

/-- A session whose membership was verified and whose pending proposal, if there
is one, follows on it. -/
structure Follows (P : Primitives) (c : Consensus) : Prop where
  wellFormed : ∀ membership, c.membership = some membership → WellFormed P membership
  pending : ∀ current, c.membership = some current → ∀ signed, c.pendingMembership = some signed →
    ∃ now, Succeeds P c.tableId c.level current signed now

/-- The confirmation of a successor by its acceptances. -/
theorem Confirmed.of_verified {confirmed : CertifiedMembership} {before : ActiveSession}
    {time : UInt64} (verified : confirmed.verifyAt P now = .ok ())
    (succeeds : Succeeds P before.tableId before.level current confirmed.proposal time) :
    Confirmed P before current confirmed := by
  obtain ⟨hsigned, haccepted, hcomplete⟩ := verifyMembershipAcceptances_eq_ok verified
  refine ⟨now, ⟨succeeds.tableId, succeeds.level, succeeds.version, succeeds.previous, hsigned,
    succeeds.coordinator⟩, fun seat hseat => ?_⟩
  obtain ⟨acceptance, hmem, hclaim⟩ := hcomplete seat hseat
  exact ⟨acceptance, hmem, hclaim, haccepted acceptance hmem⟩

namespace Follows

/-- A move that leaves the membership alone and at most clears what is pending. -/
theorem congr {c d : Consensus} (h : Follows P c) (tableId : d.tableId = c.tableId)
    (level : d.level = c.level) (members : d.membership = c.membership)
    (pending : d.pendingMembership = c.pendingMembership ∨ d.pendingMembership = none) :
    Follows P d where
  wellFormed := members ▸ h.wellFormed
  pending current hcurrent signed hsigned := by
    rcases pending with hsame | hnone
    · rw [tableId, level]
      exact h.pending current (members ▸ hcurrent) signed (hsame ▸ hsigned)
    · exact absurd (hnone.symm.trans hsigned) (by simp)

theorem move (law : P.SignaturesVerify) (h : Follows P a.consensus)
    (hmove : Move P identity received a effects b) :
    Follows P b.consensus ∧ ∀ effect ∈ effects, Succession P effect := by
  cases hmove with
  | quiet same => exact ⟨same ▸ h, by simp⟩
  | note harmless =>
    refine ⟨h, fun effect heffect => ?_⟩
    obtain rfl := mem_singleton.mp heffect
    cases harmless <;> trivial
  | proposeMembership signed now laid =>
    refine ⟨h, fun effect heffect => ?_⟩
    obtain rfl := mem_singleton.mp heffect
    exact fun current hcurrent => laid.fairTo hcurrent (h.wellFormed current hcurrent)
  | openMembership signed now opening change =>
    have hsucceeds : ∀ current, a.membership = some current →
        Succeeds P a.tableId a.level current signed now :=
      fun current hcurrent => opening.succeeds law hcurrent
    constructor
    · rw [change]
      refine ⟨h.wellFormed, fun current hcurrent other hother => ?_⟩
      obtain rfl := Option.some.inj hother
      exact ⟨now, hsucceeds current hcurrent⟩
    · intro effect heffect
      obtain rfl := mem_singleton.mp heffect
      exact hsucceeds
  | activateMembership before confirmed now verified origin same change =>
    constructor
    · rw [change]
      refine ⟨fun membership hmembership => ?_, fun _ _ _ hnone => nomatch hnone⟩
      obtain rfl := Option.some.inj hmembership
      exact CertifiedMembership.wellFormed verified
    · intro effect heffect
      obtain rfl := mem_singleton.mp heffect
      have htable : before.tableId = a.tableId := congrArg Consensus.tableId same
      have hlevel : before.level = a.level := congrArg Consensus.level same
      have hmembers : before.membership = a.membership := congrArg Consensus.membership same
      intro current hcurrent
      rw [hmembers] at hcurrent
      -- the pending proposal followed on the membership, or the certificate was checked
      have hsucceeds : ∃ time, Succeeds P a.tableId a.level current confirmed.proposal time := by
        rcases origin with ⟨hpending, -⟩ | ⟨-, scope⟩
        · exact h.pending current hcurrent _ hpending
        · exact ⟨now, .of_scope scope hcurrent (verifyMembershipAcceptances_eq_ok verified).1⟩
      obtain ⟨time, hsucceeds⟩ := hsucceeds
      rw [← htable, ← hlevel] at hsucceeds
      exact .of_verified verified hsucceeds
  | takeMembership change =>
    rw [change]
    exact ⟨h.congr rfl rfl rfl (.inr rfl), by simp⟩
  | forgetMembership change =>
    rw [change]
    exact ⟨h.congr rfl rfl rfl (.inr rfl), by simp⟩
  | voteMembership _ _ _ _ _ _ change =>
    rw [change]
    exact ⟨h.congr rfl rfl rfl (.inl rfl), by simp [Succession]⟩
  | collectMembership _ _ change =>
    rw [change]
    exact ⟨h.congr rfl rfl rfl (.inl rfl), by simp⟩
  | voteRoster _ _ _ _ _ _ _ _ _ change =>
    rw [change]
    exact ⟨h.congr rfl rfl rfl (.inl rfl), by simp [Succession]⟩
  | adoptClock _ _ _ change =>
    rw [change]
    exact ⟨h.congr rfl rfl rfl (.inl rfl), by simp⟩
  | collectRoster _ _ change =>
    rw [change]
    exact ⟨h.congr rfl rfl rfl (.inl rfl), by simp⟩
  | takeRoster change =>
    rw [change]
    exact ⟨h.congr rfl rfl rfl (.inl rfl), by simp⟩
  | activateRoster _ _ _ _ _ _ change =>
    rw [change]
    exact ⟨h.congr rfl rfl rfl (.inl rfl), by simp [Succession]⟩
  | endHand _ change =>
    rw [change]
    exact ⟨h.congr rfl rfl rfl (.inl rfl), by simp⟩
  | boundary _ _ _ _ change =>
    rw [change]
    exact ⟨h.congr rfl rfl rfl (.inr rfl), by simp [Succession]⟩

end Follows

/-- The proposal has become the pending one at some time. -/
def Opened (history : List Effect) (signed : SignedMembershipProposal) : Prop :=
  ∃ before now, .openedMembership before now signed ∈ history

/-- The proposal is the first membership of a table that was created. -/
def Founded (history : List Effect) (signed : SignedMembershipProposal) : Prop :=
  ∃ confirmed, .activatedMembership none confirmed ∈ history ∧ confirmed.proposal = signed

theorem Opened.append {history more : List Effect} (h : Opened history signed) :
    Opened (history ++ more) signed := by
  obtain ⟨before, now, hmem⟩ := h
  exact ⟨before, now, mem_append_left _ hmem⟩

theorem Founded.append {history more : List Effect} (h : Founded history signed) :
    Founded (history ++ more) signed := by
  obtain ⟨confirmed, hmem, heq⟩ := h
  exact ⟨confirmed, mem_append_left _ hmem, heq⟩

/-- Entering, a peer opens nothing and votes for what it founds. -/
theorem Entry.founded {tableId : TableId} {level : StakeLevel}
    (h : Entry P identity tableId level a effects) :
    a.consensus.pendingMembership = none ∧ ∀ signed acceptance,
      .signed (.membershipAcceptance signed acceptance) ∈ effects → Founded effects signed := by
  cases h with
  | created localJoin _ _ own confirmed _ _ _ _ state =>
    refine ⟨by rw [state]; rfl, fun signed acceptance hvote => ⟨confirmed, by simp, ?_⟩⟩
    simp only [mem_cons, reduceCtorEq, Effect.signed.injEq, Signed.membershipAcceptance.injEq,
      not_mem_nil, or_false, false_or] at hvote
    exact hvote.1.symm
  | joined _ state => exact ⟨by rw [state]; rfl, by simp⟩

namespace Room

variable {room : Room P} {safe : Condition room} {w : room.World}

variable {signed : SignedMembershipProposal}

/-- Only what was opened before is voted for, the first membership of a table
apart. -/
theorem opened_of_vote (reached : Reach room.opened safe w) (peer : room.Peer)
    {acceptance : MembershipAcceptance}
    (vote : .signed (.membershipAcceptance signed acceptance) ∈ (w peer).history) :
    Opened (w peer).history signed ∨ Founded (w peer).history signed := by
  have peers := reached.by_peers (I := fun history session =>
    (∀ active ∈ session, ∀ p, active.consensus.pendingMembership = some p → Opened history p) ∧
    ∀ signed acceptance, .signed (.membershipAcceptance signed acceptance) ∈ history →
      Opened history signed ∨ Founded history signed) ?start ?enter ?move ?drop peer
  case start => exact ⟨by simp, by simp⟩
  case drop => exact fun history session h => ⟨by simp, h.2⟩
  case enter =>
    intro peer history session active effects hold entry
    obtain ⟨hpending, hfounded⟩ := entry.founded
    constructor
    · intro other hother p hp
      obtain rfl := Option.some.inj hother
      exact absurd (hpending.symm.trans hp) (by simp)
    · intro signed acceptance hvote
      rcases mem_append.mp hvote with hvote | hvote
      · exact (hold.2 signed acceptance hvote).imp Opened.append Founded.append
      · obtain ⟨confirmed, hmem, heq⟩ := hfounded signed acceptance hvote
        exact .inr ⟨confirmed, mem_append_right _ hmem, heq⟩
  case move =>
    intro log peer received history active effects next hold hmove _
    constructor
    · intro other hother p hp
      obtain rfl := Option.some.inj hother
      rcases hmove.pendingMembership with hsame | hnone | ⟨signed, now, -, hmem, hnew⟩
      · exact (hold.1 active rfl p (hsame.symm.trans hp)).append
      · exact absurd (hnone.symm.trans hp) (by simp)
      · obtain rfl := Option.some.inj (hnew.symm.trans hp)
        exact ⟨active, now, mem_append_right _ hmem⟩
    · intro signed acceptance hvote
      rcases mem_append.mp hvote with hvote | hvote
      · exact (hold.2 signed acceptance hvote).imp Opened.append Founded.append
      · exact .inl (hold.1 active rfl signed (hmove.pendingMembership_of_vote hvote)).append
  exact peers.2 signed acceptance vote

theorem succession (law : P.SignaturesVerify) (reached : Reach room.opened safe w)
    (peer : room.Peer) : ∀ effect ∈ (w peer).history, Succession P effect := by
  refine (reached.by_sessions (I := fun active => Follows P active.consensus) ?_ ?_).2 peer
  · intro peer active effects entry
    cases entry with
    | created _ _ now _ confirmed _ _ verified _ state =>
      rw [state]
      refine ⟨⟨fun membership hmembership => ?_, fun _ _ _ h => nomatch h⟩, by simp [Succession]⟩
      obtain rfl := Option.some.inj hmembership
      exact CertifiedMembership.wellFormed verified
    | joined _ state =>
      rw [state]
      exact ⟨⟨fun _ h => (nomatch h), fun _ h => nomatch h⟩, by simp [Succession]⟩
  · exact fun _ _ _ _ _ _ hactive hmove _ => hactive.move law hmove

/-- In every run, against any senders: what a peer accepts with a signature it
has opened before (the first membership of a table apart), every proposal it
opens follows on its membership, every membership it activates follows on the
one before and has the acceptances of all its seats, and every proposal it makes
itself is fair to the members. -/
theorem successors_authorized (law : P.SignaturesVerify) (reached : Reach room.opened safe w)
    (peer : room.Peer) :
    (∀ signed acceptance, .signed (.membershipAcceptance signed acceptance) ∈ (w peer).history →
      Opened (w peer).history signed ∨ Founded (w peer).history signed) ∧
    (∀ before now signed current, .openedMembership before now signed ∈ (w peer).history →
      before.membership = some current →
        Succeeds P before.tableId before.level current signed now) ∧
    (∀ before confirmed current, .activatedMembership (some before) confirmed ∈ (w peer).history →
      before.membership = some current → Confirmed P before current confirmed) ∧
    ∀ before now signed current, .proposedMembership before now signed ∈ (w peer).history →
      before.membership = some current → FairTo P before now current.proposal signed.proposal := by
  have hall := succession law reached peer
  refine ⟨fun signed acceptance vote => opened_of_vote reached peer vote, ?_, ?_, ?_⟩
  · exact fun before now signed current hmem hcurrent => hall _ hmem current hcurrent
  · exact fun before confirmed current hmem hcurrent => hall _ hmem current hcurrent
  · exact fun before now signed current hmem hcurrent => hall _ hmem current hcurrent

/-- The proposals a peer has made itself, with its membership at that time. -/
def ownProposal? : Effect →
    Option (ActiveSession × UInt64 × SignedMembershipProposal × SignedMembershipProposal)
  | .proposedMembership before now signed =>
    before.membership.map fun current => (before, now, signed, current)
  | _ => none

/-- The creator of a table leaves out the second player, whose seat has run out. -/
theorem successors_authorized_left_out :
    ∃ (w : plainRoom.World) (before : ActiveSession) (now : UInt64)
      (signed current : SignedMembershipProposal),
      Reach plainRoom.opened plainRoom.anything w ∧
        .proposedMembership before now signed ∈ (w (0 : Fin 4)).history ∧
        before.membership = some current ∧ current.proposal.seats.length = 2 ∧
        signed.proposal.seats.length = 1 ∧
        FairTo .plain before now current.proposal signed.proposal := by
  have hplay : (play plainRoom.anything plainRoom.start forkScript).any (fun w =>
      ((w (0 : Fin 4)).history.filterMap ownProposal?).any fun entry =>
        entry.2.2.2.proposal.seats.length = 2 ∧ entry.2.2.1.proposal.seats.length = 1) = true := by
    decide +kernel
  obtain ⟨w, hreach, hcheck⟩ := exists_reach_of_play hplay
  obtain ⟨⟨before, now, signed, current⟩, hentry, hcheck⟩ := any_eq_true.mp hcheck
  obtain ⟨htwo, hone⟩ := of_decide_eq_true hcheck
  obtain ⟨effect, hmem, hread⟩ := mem_filterMap.mp hentry
  unfold ownProposal? at hread
  split at hread
  · obtain ⟨_, hcurrent, heq⟩ := Option.map_eq_some_iff.mp hread
    cases heq
    have hreach := hreach.opened_of_honest
    exact ⟨w, before, now, signed, current, hreach, hmem, hcurrent, htwo, hone,
      (successors_authorized Primitives.plain_signaturesVerify hreach (0 : Fin 4)).2.2.2 before now
        signed current hmem hcurrent⟩
  · cases hread

/-! ## A takeover -/

/-- Somebody who is not a peer of the room. -/
def outsider : LocalIdentity := plainIdentity 9

/-- The outsider's successor of a membership: it takes the first seat itself,
moves the member on the second seat to the third and leaves everybody else out. -/
def takeover (now : UInt64) (membership : SignedMembershipProposal) :
    Option SignedMembershipProposal :=
  match membership.proposal.seats with
  | _ :: member :: _ =>
    (do
      let ticket ← issueLocalSessionTicket .plain plainRoom.level (chips 40)
        [Primitives.plain.peerIdToBytes outsider.peerId] outsider now (FixedBytes.ofNat 5)
      let join ← issueJoinIntent .plain plainRoom.tableId ticket outsider now (FixedBytes.ofNat 6)
      let proposal ← (MembershipProposal.assemble .plain plainRoom.tableId plainRoom.level
        (saturatingAdd membership.proposal.membershipVersion 1)
        (some membership.proposal.proposalHash)
        [⟨⟨1⟩, join⟩, ⟨⟨3⟩, member.joinIntent⟩] [] [] now).mapError SessionError.session
      (issue .plain proposal now outsider.device
        outsider.certificate).mapError SessionError.session).toOption
  | _ => none

/-- The successor leaves out a member whose join intent is in force and who has
not asked to leave, moves another member, and is signed by a player who was not
a member. -/
def Overthrows (now : UInt64) (current next : SignedMembershipProposal) : Prop :=
  (∃ seat ∈ current.proposal.seats, seat.joinIntent.verifyAt Primitives.plain now = .ok () ∧
      (∀ claim ∈ next.proposal.seats, claim.joinIntent.playerId ≠ seat.joinIntent.playerId) ∧
      next.proposal.leaveIntents = []) ∧
    (∃ seat ∈ current.proposal.seats, ∃ claim ∈ next.proposal.seats,
      claim.joinIntent.playerId = seat.joinIntent.playerId ∧
        claim.physicalSeat ≠ seat.physicalSeat) ∧
    ∀ seat ∈ current.proposal.seats,
      seat.joinIntent.playerId ≠ next.attestation.certificate.playerId
deriving Decidable

/-- The outsider's proposal for the second peer of a pair. -/
def takeoverFor (w : plainRoom.World) : Option SignedMembershipProposal :=
  (w (1 : Fin 4)).session.bind fun active => active.membership.bind fun membership =>
    takeover (plainEpoch + 4000) membership

/-- The peer is handed the proposal. -/
def takeoverCommand (signed : SignedMembershipProposal) : Command :=
  .message (some outsider.peerId) (.membershipProposal signed) (plainEpoch + 4000) 4000

/-- Whether the effect opens the proposal outside of a hand, which overthrows the
membership. -/
def opensOverthrow (signed : SignedMembershipProposal) : Effect → Bool
  | .openedMembership before now opened => opened = signed ∧ before.handActive = false ∧
    before.membership.any fun current => Overthrows now current signed
  | _ => false

theorem opensOverthrow_eq_true {effect : Effect} (h : opensOverthrow signed effect = true) :
    ∃ before now current, effect = .openedMembership before now signed ∧
      before.handActive = false ∧ before.membership = some current ∧
      Overthrows now current signed := by
  unfold opensOverthrow at h
  split at h
  · rename_i before now opened
    obtain ⟨rfl, hhand, hany⟩ := of_decide_eq_true h
    obtain ⟨current, hcurrent, hoverthrows⟩ := (Option.any_eq_true _ _).mp hany
    exact ⟨before, now, current, rfl, hhand, hcurrent, of_decide_eq_true hoverthrows⟩
  · cases h

/-- The peer opens the proposal and signs it. -/
def takenOver (w : plainRoom.World) : Bool :=
  (takeoverFor w).any fun signed =>
    (Room.effects w (1 : Fin 4) (takeoverCommand signed)).any (opensOverthrow signed) ∧
      signed ∈ votedMemberships (Room.effects w (1 : Fin 4) (takeoverCommand signed))

theorem safe_anything (peer : room.Peer) (log : room.Log) (effects : List Effect) :
    Safe room.anything peer log effects := by
  induction effects generalizing log with
  | nil => trivial
  | cons first rest ih => exact ⟨trivial, ih _⟩

theorem mem_history_act {peer : room.Peer} {command : Command} {effect : Effect}
    (h : effect ∈ Room.effects w peer command) : effect ∈ (act w peer command peer).history := by
  simp only [act, put, Function.update_self]
  exact mem_append_right _ h

/-- An outsider gets one member of a pair to sign a membership without the
other one. It needs its own keys only and the join intent of that member. -/
theorem membership_taken_over :
    ∃ (w : plainRoom.World) (before : ActiveSession) (now : UInt64)
      (current signed : SignedMembershipProposal) (acceptance : MembershipAcceptance),
      Reach plainRoom.opened plainRoom.anything w ∧
        .openedMembership before now signed ∈ (w (1 : Fin 4)).history ∧
        .signed (.membershipAcceptance signed acceptance) ∈ (w (1 : Fin 4)).history ∧
        before.handActive = false ∧ before.membership = some current ∧
        Overthrows now current signed := by
  have hplay : (play plainRoom.anything plainRoom.start pairScript).any takenOver = true := by
    decide +kernel
  obtain ⟨w, hreach, hcheck⟩ := exists_reach_of_play hplay
  obtain ⟨signed, -, hcheck⟩ := (Option.any_eq_true _ _).mp hcheck
  obtain ⟨hopens, hvotes⟩ := of_decide_eq_true hcheck
  obtain ⟨effect, hmem, hopens⟩ := any_eq_true.mp hopens
  obtain ⟨before, now, current, rfl, hhand, hcurrent, hoverthrows⟩ := opensOverthrow_eq_true hopens
  obtain ⟨acceptance, hvote⟩ := mem_votedMemberships.mp hvotes
  -- nothing in the message is an acceptance, so none is forged
  have hadmissible : Admissible plainRoom.opened (log w) (takeoverCommand signed) :=
    .inr ⟨by simp [RoomWireMessage.membershipAcceptances],
      by simp [RoomWireMessage.rosterAcceptances]⟩
  exact ⟨act w (1 : Fin 4) (takeoverCommand signed), before, now, current, signed, acceptance,
    .step _ _ hreach.opened_of_honest hadmissible (safe_anything ..), mem_history_act hmem,
    mem_history_act hvote, hhand, hcurrent, hoverthrows⟩

end Room

end TokenHoldem
